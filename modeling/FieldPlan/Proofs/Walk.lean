import FieldPlan.Catalog.Travel
import FieldPlan.Proofs.Accepts.Descent

/-! Walking down the template of an accepted plan. Whatever record is reached, in
whatever way, is one that clients may reach, and its items are fields of it. -/
namespace FieldPlan

/-- A way down a template, along the sites that it was built from. -/
inductive Walk (c : Catalog) :
    Site → List TemplateItem → List String → Site → List TemplateItem → Prop
  | here (s : Site) (items : List TemplateItem) : Walk c s items [] s items
  | down {s t u : Site} {name : String} {path : List String}
      {items inner final : List TemplateItem} (shown : .nested name inner ∈ items)
      (under : s.under c name = some t) (onward : Walk c t inner path u final) :
      Walk c s items (name :: path) u final

variable {c : Catalog} {e : Exposure} {s t : Site} {name : String}
variable {requests : List (Value × Request)} {l : Level}

/-! ### The parts of an accepted level -/

theorem Site.bareLoad_sublist : ((s.bareLoad c name).map LoadItem.name).Sublist [name] := by
  unfold bareLoad
  split
  · exact List.Sublist.refl _
  · exact List.Sublist.refl _
  · exact List.nil_sublist _

theorem Site.nestedLoad_sublist (args : List (String × Value)) (below : Level) :
    ((s.nestedLoad c name args below).map LoadItem.name).Sublist [name] := by
  simp only [nestedLoad]
  split
  · exact List.Sublist.refl _
  · exact List.Sublist.refl _
  · rw [List.map_singleton]
    split <;> exact List.Sublist.refl _
  · rw [List.map_singleton]
    split <;> exact List.Sublist.refl _
  · split
    · exact List.nil_sublist _
    · exact List.Sublist.refl _

theorem Site.nestedLoad_name {args : List (String × Value)} {below : Level} {x : LoadItem}
    (h : x ∈ s.nestedLoad c name args below) : x.name = name := by
  have member := (nestedLoad_sublist args below).subset (List.mem_map_of_mem h)
  exact List.mem_singleton.1 member

theorem Part.load_sublist {request : Request} {part : Level}
    (h : Part c e s name request part) : (part.load.map LoadItem.name).Sublist [name] := by
  cases h with
  | bare plain => exact Site.bareLoad_sublist
  | nested args asked under inner => exact Site.nestedLoad_sublist args _

theorem Part.load_name {request : Request} {part : Level} {x : LoadItem}
    (h : Part c e s name request part) (loaded : x ∈ part.load) : x.name = name := by
  have member := h.load_sublist.subset (List.mem_map_of_mem loaded)
  exact List.mem_singleton.1 member

theorem Accepts.load_sublist (h : Accepts c e s requests l) :
    (l.load.map LoadItem.name).Sublist (l.template.map TemplateItem.name) := by
  refine h.parts (motive := fun _ l =>
    (l.load.map LoadItem.name).Sublist (l.template.map TemplateItem.name))
    (List.Sublist.refl _) ?_
  intro spelled request part rest l first fresh others
  rw [Level.append_load, Level.append_template, List.map_append, List.map_append,
    first.template_name]
  exact first.load_sublist.append others

theorem Accepts.load_name (h : Accepts c e s requests l) {x : LoadItem} (loaded : x ∈ l.load) :
    x.name ∈ l.template.map TemplateItem.name :=
  h.load_sublist.subset (List.mem_map_of_mem loaded)

/-- The item is shown by a part of its own, which loads all that is loaded in its name. -/
def Level.Shows (c : Catalog) (e : Exposure) (s : Site) (l : Level) (item : TemplateItem) : Prop :=
  ∃ request part, Part c e s item.name request part ∧ part.template = [item] ∧
    ∀ x : LoadItem, x.name = item.name → (x ∈ l.load ↔ x ∈ part.load)

theorem Part.shows_append {request : Request} {part : Level} (first : Part c e s name request part)
    (fresh : name ∉ l.template.map TemplateItem.name) (others : Accepts c e s requests l)
    (later : ∀ item ∈ l.template, l.Shows c e s item) {item : TemplateItem}
    (shown : item ∈ (part ++ l).template) : (part ++ l).Shows c e s item := by
  rw [Level.append_template, List.mem_append] at shown
  rcases shown with head | tail
  · obtain ⟨only, single, named⟩ := List.map_eq_singleton_iff.1 first.template_name
    rw [single, List.mem_singleton] at head
    subst head
    subst named
    refine ⟨request, part, first, single, ?_⟩
    intro x same
    rw [Level.append_load, List.mem_append]
    constructor
    · rintro (mine | other)
      · exact mine
      · have clash := others.load_name other
        rw [same] at clash
        exact absurd clash fresh
    · exact Or.inl
  · obtain ⟨request', part', own, single, loads⟩ := later item tail
    refine ⟨request', part', own, single, ?_⟩
    intro x same
    rw [Level.append_load, List.mem_append, ← loads x same]
    constructor
    · rintro (other | mine)
      · have clash : name ∈ l.template.map TemplateItem.name := by
          rw [← first.load_name other, same]
          exact List.mem_map_of_mem tail
        exact absurd clash fresh
      · exact mine
    · exact Or.inr

theorem Accepts.shows (h : Accepts c e s requests l) {item : TemplateItem}
    (shown : item ∈ l.template) : l.Shows c e s item := by
  induction h generalizing item with
  | nil entered => exact absurd shown List.not_mem_nil
  | bare resolved plain fresh others ih =>
    exact Part.shows_append (.bare plain) fresh others (fun _ => ih) shown
  | nested args resolved asked under inner fresh others innerIh ih =>
    exact Part.shows_append (.nested args asked under inner) fresh others (fun _ => ih) shown

theorem Accepts.level_below (h : Accepts c e s requests l) {inner : List TemplateItem}
    (shown : .nested name inner ∈ l.template) :
    ∃ t args requests' below, s.under c name = some t ∧ Accepts c e t requests' below ∧
      below.template = inner ∧
      ∀ x : LoadItem, x.name = name → (x ∈ l.load ↔ x ∈ s.nestedLoad c name args below) := by
  obtain ⟨request, part, own, single, loads⟩ := h.shows shown
  cases own with
  | bare plain => simp [Site.bareLevel] at single
  | @nested t _ v below args asked under accepted =>
    simp only [Site.nestedLevel, List.cons.injEq, and_true] at single
    split at single
    · contradiction
    · cases single
      exact ⟨t, args, _, below, under, accepted, rfl, loads⟩

theorem Accepts.entered (h : Accepts c e s requests l) : s.Entered c e := by
  induction h with
  | nil entered => exact entered
  | bare resolved plain fresh others ih => exact ih
  | nested args resolved asked under inner fresh others innerIh ih => exact ih

theorem Accepts.classified {resource : String} {r : Resource}
    (h : Accepts c e (.record resource) requests l) (found : c.resource? resource = some r)
    {item : TemplateItem} (shown : item ∈ l.template) : classify c r item.name ≠ .notFound := by
  obtain ⟨request, part, own, -⟩ := h.shows shown
  intro absent
  cases own with
  | bare plain =>
    rw [Site.takesBare, Site.kind_record found, absent] at plain
    contradiction
  | nested args asked under inner =>
    rw [Site.under, found, Option.bind_some, Site.ofField, absent] at under
    contradiction

/-! ### Whole walks -/

theorem Accepts.walk {items final : List TemplateItem} {path : List String}
    (h : Accepts c e s requests l) (same : l.template = items) (walk : Walk c s items path t final) :
    ∃ requests' l', Accepts c e t requests' l' ∧ l'.template = final := by
  induction walk generalizing requests l with
  | here s items => exact ⟨requests, l, h, same⟩
  | down shown under onward ih =>
    subst same
    obtain ⟨t, args, requests', below, leads, accepted, template, -⟩ := h.level_below shown
    rw [under] at leads
    obtain rfl := Option.some.inj leads
    exact ih accepted template

/-- No walk gets stuck, and the records on it are ones that clients may reach. -/
theorem plan_walk_exposed {root action : String} {selection : Value}
    (h : plan c root action selection e = .ok l) :
    ∃ s, Site.ofResult c root action = some s ∧
      ∀ path t items, Walk c s l.template path t items →
        (∀ name inner, .nested name inner ∈ items → (t.under c name).isSome) ∧
        ∀ resource, t = .record resource →
          (resource = root ∨ e.allows resource = true) ∧
          ∃ r, c.resource? resource = some r ∧
            ∀ item ∈ items, classify c r item.name ≠ .notFound := by
  obtain ⟨s, result, accepted⟩ := plan_accepts h
  refine ⟨s, result, ?_⟩
  intro path t items walk
  obtain ⟨requests, l', reached, rfl⟩ := accepted.walk rfl walk
  constructor
  · intro name inner shown
    obtain ⟨u, args, requests', below, under, -⟩ := reached.level_below shown
    rw [under, Option.isSome_some]
  · rintro resource rfl
    obtain ⟨present, allowed⟩ := reached.entered
    obtain ⟨r, found⟩ := Option.isSome_iff_exists.1 present
    refine ⟨(e.allows_withRoot root resource).1 allowed, r, found, ?_⟩
    intro item shown
    exact reached.classified found shown

theorem tour_walk_exposed :
    plan Travel.catalog "Trip" "read" Travel.tour (some ["Person", "Stop"]) =
        .ok Travel.tourPlan ∧
      ∃ s, Site.ofResult Travel.catalog "Trip" "read" = some s ∧
        ∀ path t items, Walk Travel.catalog s Travel.tourPlan.template path t items →
          (∀ name inner, .nested name inner ∈ items → (t.under Travel.catalog name).isSome) ∧
          ∀ resource, t = .record resource →
            (resource = "Trip" ∨ Exposure.allows (some ["Person", "Stop"]) resource = true) ∧
            ∃ r, Travel.catalog.resource? resource = some r ∧
              ∀ item ∈ items, classify Travel.catalog r item.name ≠ .notFound := by
  have accepted : plan Travel.catalog "Trip" "read" Travel.tour (some ["Person", "Stop"]) =
      .ok Travel.tourPlan := by
    with_unfolding_all rfl
  exact ⟨accepted, plan_walk_exposed accepted⟩

end FieldPlan
