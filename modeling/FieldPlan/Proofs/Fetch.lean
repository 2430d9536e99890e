import FieldPlan.Proofs.Distinct
import FieldPlan.Proofs.Load

/-! Nothing is fetched that is not shown. Each list of a level keeps the order of the template
and repeats nothing, and what is loaded below a name is shown below it. -/
namespace FieldPlan

def Classification.isStored : Classification → Bool
  | .attribute => true
  | .embeddedResource => true
  | .embeddedResourceArray => true
  | .unionAttribute => true
  | .typedStruct => true
  | .tuple => true
  | _ => false

/-- The template has an item for what is loaded, and inside of it items for all that is loaded
below. Below an item without any inside nothing is loaded. -/
inductive LoadItem.ShownBy : LoadItem → List TemplateItem → Prop
  | whole {x : LoadItem} {template : List TemplateItem} (shown : .field x.name ∈ template)
      (nothing : x.children = []) : ShownBy x template
  | parts {x : LoadItem} {template inner : List TemplateItem}
      (shown : .nested x.name inner ∈ template) (inside : ∀ y ∈ x.children, ShownBy y inner) :
      ShownBy x template

def Site.Stores (c : Catalog) (s : Site) (name : String) : Prop :=
  ∃ resource r, s = .record resource ∧ c.resource? resource = some r ∧
    (classify c r name).isStored = true

structure Level.FetchesShown (c : Catalog) (s : Site) (l : Level) : Prop where
  once : (l.template.map TemplateItem.name).Nodup
  select : l.select.Sublist (l.template.map TemplateItem.name)
  load : (l.load.map LoadItem.name).Sublist (l.template.map TemplateItem.name)
  stored : ∀ name ∈ l.select, s.Stores c name
  shown : ∀ x ∈ l.load, x.ShownBy l.template

variable {c : Catalog} {e : Exposure} {s t : Site} {name : String}
variable {requests : List (Value × Request)} {l : Level}

theorem LoadItem.ShownBy.mono {x : LoadItem} {template template' : List TemplateItem}
    (h : x.ShownBy template) (more : template ⊆ template') : x.ShownBy template' := by
  cases h with
  | whole shown nothing => exact .whole (more shown) nothing
  | parts shown inside => exact .parts (more shown) inside

theorem LoadItem.ShownBy.field {template : List TemplateItem}
    (h : name ∈ template.map TemplateItem.name) : (LoadItem.field name).ShownBy template := by
  obtain ⟨item, shown, named⟩ := List.mem_map.1 h
  subst named
  cases item with
  | field name => exact .whole shown rfl
  | nested name inner =>
    refine .parts shown ?_
    intro y absent
    exact absurd absent List.not_mem_nil

/-! ### One part -/

namespace Site

theorem selected_sublist : (s.selected c name).Sublist [name] := by
  unfold selected
  split
  all_goals first
    | exact List.Sublist.refl _
    | exact List.nil_sublist _

theorem bareLoad_children {x : LoadItem} (h : x ∈ s.bareLoad c name) : x.children = [] := by
  unfold bareLoad at h
  split at h
  · rw [List.mem_singleton.1 h, LoadItem.children]
  · rw [List.mem_singleton.1 h, LoadItem.children]
  · exact absurd h List.not_mem_nil

theorem mem_selected {field : String} (h : field ∈ s.selected c name) :
    field = name ∧ s.Stores c name := by
  have same : field = name := List.mem_singleton.1 (selected_sublist.subset h)
  refine ⟨same, ?_⟩
  cases s with
  | record resource =>
    cases found : c.resource? resource with
    | none => simp [selected, kind, found] at h
    | some r =>
      refine ⟨resource, r, rfl, found, ?_⟩
      simp only [selected, kind, found] at h
      cases kind : classify c r name <;> simp [kind] at h <;> rfl
  | _ => simp [selected, kind] at h

theorem carried_subset_fetched (below : Level) : s.carried c name below ⊆ below.fetched := by
  intro y member
  cases carries : s.carries c name with
  | true => exact (loadedBy_carried carries).2 y member
  | false =>
    rw [carried, carries, if_neg Bool.false_ne_true] at member
    exact absurd member List.not_mem_nil

theorem ofType_plain {type : TypeRef} (plain : c.requiresSelection type = false) :
    ofType c type = .untyped ∨ ofType c type = .closed := by
  rw [← ofType_element]
  unfold Catalog.requiresSelection at plain
  cases shape : type.element with
  | array item => exact absurd shape (element_ne_array type item)
  | struct instanceOf => cases instanceOf <;> simp_all [ofType]
  | _ => simp_all [ofType, ofSlots]

theorem under_whole (whole : s.isWhole c name = true) (under : s.under c name = some t) :
    t = .untyped ∨ t = .closed := by
  cases s with
  | record resource =>
    cases found : c.resource? resource with
    | none => simp [isWhole, found] at whole
    | some r =>
      simp only [isWhole, found, Option.any_some, Bool.and_eq_true, beq_iff_eq] at whole
      obtain ⟨called, whole⟩ := whole
      cases present : r.calculation? name with
      | none => simp [present] at whole
      | some calculation =>
        simp only [present, Option.any_some, Bool.not_eq_true'] at whole
        simp only [Site.under, found, Option.bind_some, ofField, called, present, Option.map_some,
          ofPosition_ofType, Option.some.injEq] at under
        rw [← under]
        exact ofType_plain whole
  | _ => simp [isWhole] at whole

end Site

theorem Part.select_sublist {request : Request} {part : Level}
    (h : Part c e s name request part) : part.select.Sublist [name] := by
  cases h with
  | bare plain => exact Site.selected_sublist
  | nested args asked under inner => exact Site.selected_sublist

theorem Part.load_nil {request : Request} {part : Level} (h : Part c e s name request part)
    (plain : s = .untyped ∨ s = .closed) : part.load = [] := by
  cases h with
  | bare => rcases plain with rfl | rfl <;> rfl
  | nested => rcases plain with rfl | rfl <;> rfl

theorem Part.stored {request : Request} {part : Level} (h : Part c e s name request part)
    {field : String} (selected : field ∈ part.select) : s.Stores c field := by
  cases h with
  | bare plain =>
    obtain ⟨rfl, stored⟩ := Site.mem_selected selected
    exact stored
  | nested args asked under inner =>
    obtain ⟨rfl, stored⟩ := Site.mem_selected selected
    exact stored

/-! ### Whole levels -/

namespace Accepts

theorem select_sublist (h : Accepts c e s requests l) :
    l.select.Sublist (l.template.map TemplateItem.name) := by
  refine h.parts (motive := fun _ l => l.select.Sublist (l.template.map TemplateItem.name))
    (List.Sublist.refl _) ?_
  intro spelled request part rest l first fresh others
  rw [Level.append_select, Level.append_template, List.map_append, first.template_name]
  exact first.select_sublist.append others

theorem stored (h : Accepts c e s requests l) : ∀ field ∈ l.select, s.Stores c field := by
  refine h.parts (motive := fun _ l => ∀ field ∈ l.select, s.Stores c field) ?_ ?_
  · intro field absent
    exact absurd absent List.not_mem_nil
  · intro spelled request part rest l first fresh others field member
    rcases List.mem_append.1 member with mine | later
    · exact first.stored mine
    · exact others field later

theorem fetched_nil (h : Accepts c e s requests l) (plain : s = .untyped ∨ s = .closed) :
    l.fetched = [] := by
  have select : l.select = [] := by
    rw [List.eq_nil_iff_forall_not_mem]
    intro field member
    obtain ⟨resource, r, rfl, -⟩ := h.stored field member
    simp at plain
  have load : l.load = [] := by
    refine h.parts (motive := fun _ l => l.load = []) rfl ?_
    intro spelled request part rest l first fresh others
    rw [Level.append_load, first.load_nil plain, others, List.nil_append]
  rw [Level.fetched, select, load, List.map_nil, List.nil_append]

theorem fetched_shown (h : Accepts c e s requests l) (loads : ∀ x ∈ l.load, x.ShownBy l.template)
    {x : LoadItem} (fetched : x ∈ l.fetched) : x.ShownBy l.template := by
  rcases List.mem_append.1 fetched with selected | loaded
  · obtain ⟨field, member, rfl⟩ := List.mem_map.1 selected
    exact .field (h.select_sublist.subset member)
  · exact loads x loaded

theorem nestedLoad_shown {args : List (String × Value)} {below : Level}
    (inner : Accepts c e t requests below) (under : s.under c name = some t)
    (loads : ∀ y ∈ below.load, y.ShownBy below.template) {x : LoadItem}
    (mine : x ∈ s.nestedLoad c name args below) :
    x.ShownBy (s.nestedLevel c name args below).template := by
  have named : x.name = name := Site.nestedLoad_name mine
  have inside : ∀ y ∈ x.children, y ∈ below.fetched := by
    intro y child
    apply Site.carried_subset_fetched
    exact (Site.mem_carried args).2 ⟨x, mine, child⟩
  cases whole : s.isWhole c name with
  | true =>
    have shown : .field x.name ∈ (s.nestedLevel c name args below).template := by
      rw [named, Site.nestedLevel, whole, if_pos rfl]
      exact List.mem_singleton_self _
    -- the value is untyped or closed, so that no level of it fetches anything
    refine .whole shown (List.eq_nil_iff_forall_not_mem.2 ?_)
    intro y child
    have fetched := inside y child
    rw [inner.fetched_nil (Site.under_whole whole under)] at fetched
    exact absurd fetched List.not_mem_nil
  | false =>
    have shown : .nested x.name below.template ∈ (s.nestedLevel c name args below).template := by
      rw [named, Site.nestedLevel, whole, if_neg Bool.false_ne_true]
      exact List.mem_singleton_self _
    refine .parts shown ?_
    intro y child
    exact inner.fetched_shown loads (inside y child)

theorem loads_shown (h : Accepts c e s requests l) : ∀ x ∈ l.load, x.ShownBy l.template := by
  -- `innerIh` is the level below a name, `ih` the other entries of the level
  induction h with
  | nil entered =>
    intro x absent
    exact absurd absent List.not_mem_nil
  | bare resolved plain fresh others ih =>
    intro x member
    rcases List.mem_append.1 member with mine | later
    · have named := Part.load_name (e := e) (.bare plain) mine
      refine .whole ?_ (Site.bareLoad_children mine)
      rw [named]
      exact List.mem_cons_self
    · exact (ih x later).mono (List.subset_append_right _ _)
  | nested args resolved asked under inner fresh others innerIh ih =>
    intro x member
    rcases List.mem_append.1 member with mine | later
    · exact (inner.nestedLoad_shown under innerIh mine).mono (List.subset_append_left _ _)
    · exact (ih x later).mono (List.subset_append_right _ _)

theorem fetchesShown (h : Accepts c e s requests l) : l.FetchesShown c s where
  once := by
    obtain ⟨here, below⟩ := h.distinct
    exact here
  select := h.select_sublist
  load := h.load_sublist
  stored := h.stored
  shown := h.loads_shown

end Accepts

/-- A plan fetches nothing but what its template shows, and so does every level that is worked
on for it. -/
theorem plan_fetches_shown {root action : String} {selection : Value}
    (h : plan c root action selection e = .ok l) :
    ∃ s, Site.ofResult c root action = some s ∧ l.FetchesShown c s ∧
      ∀ position v path below, descend c (e.withRoot root) position v path = .ok below →
        below.FetchesShown c (Site.ofPosition c position) := by
  obtain ⟨s, result, accepted⟩ := plan_accepts h
  refine ⟨s, result, accepted.fetchesShown, ?_⟩
  intro position v path below worked
  exact (descend_accepts worked).fetchesShown

theorem tour_fetches_shown :
    plan Travel.catalog "Trip" "read" Travel.tour none = .ok Travel.tourPlan ∧
      ∃ s, Site.ofResult Travel.catalog "Trip" "read" = some s ∧
        Travel.tourPlan.FetchesShown Travel.catalog s := by
  obtain ⟨s, result, shown, -⟩ := plan_fetches_shown Travel.plan_tour
  exact ⟨Travel.plan_tour, s, result, shown⟩

end FieldPlan
