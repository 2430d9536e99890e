import FieldPlan.Proofs.Walk

/-! What a plan loads of the records that its template shows. On the way down a template
the load list is followed through its pairs and calls. Where every step is one that
carries loads, all that has to be loaded is there; elsewhere nothing is, since the value
is fetched whole. -/
namespace FieldPlan

namespace LoadItem

def children : LoadItem → List LoadItem
  | .field _ => []
  | .nested _ items => items
  | .call _ _ fields => fields

end LoadItem

/-- What is loaded at the end of a path. -/
def loadAt (items : List LoadItem) : List String → List LoadItem
  | [] => items
  | name :: path => loadAt ((items.filter (·.name == name)).flatMap LoadItem.children) path

namespace Site
variable (c : Catalog)

def isLoaded (s : Site) (name : String) : Bool :=
  match s.kind c name with
  | .calculation => true
  | .calculationWithArgs => true
  | .calculationComplex => true
  | .aggregate => true
  | .complexAggregate => true
  | .relationship => true
  | _ => false

/-- Every step of the path carries what is loaded below it. -/
def carriesAlong : Site → List String → Bool
  | _, [] => true
  | s, name :: path => s.carries c name && (s.under c name).any fun t => carriesAlong t path

end Site

variable {c : Catalog} {e : Exposure} {s t : Site} {name : String}
variable {requests : List (Value × Request)} {l : Level}

theorem loadAt_nil (path : List String) : loadAt [] path = [] := by
  induction path with
  | nil => rfl
  | cons name path ih => exact ih

/-- The items are what is loaded of a level, perhaps with the names selected there. -/
def Level.LoadedBy (l : Level) (items : List LoadItem) : Prop :=
  (∀ x ∈ l.load, x ∈ items) ∧ ∀ x ∈ items, x ∈ l.fetched

theorem Level.loadedBy_load (l : Level) : l.LoadedBy l.load := by
  refine ⟨fun x loaded => loaded, ?_⟩
  intro x loaded
  exact List.mem_append_right _ loaded

theorem Level.loadedBy_fetched (l : Level) : l.LoadedBy l.fetched := by
  refine ⟨?_, fun x fetched => fetched⟩
  intro x loaded
  exact List.mem_append_right _ loaded

theorem Site.mem_carried (args : List (String × Value)) {below : Level} {y : LoadItem} :
    y ∈ s.carried c name below ↔
      ∃ x ∈ s.nestedLoad c name args below, y ∈ x.children := by
  have derived : y ∈ s.carried c name below ↔
      y ∈ (if (s.carried c name below).isEmpty then LoadItem.field name
        else .nested name (s.carried c name below)).children := by
    cases carried : s.carried c name below with
    | nil => exact Iff.rfl
    | cons x rest => exact Iff.rfl
  simp only [nestedLoad]
  split
  · simp [LoadItem.children]
  · simp [LoadItem.children]
  · simpa using derived
  · simpa using derived
  · cases carried : s.carried c name below with
    | nil => simp
    | cons x rest => simp [LoadItem.children]

theorem Site.loadedBy_carried {below : Level} (carries : s.carries c name = true) :
    below.LoadedBy (s.carried c name below) := by
  rw [carried, if_pos carries]
  split
  · exact below.loadedBy_fetched
  · exact below.loadedBy_fetched
  · exact below.loadedBy_fetched
  · exact below.loadedBy_fetched
  · exact below.loadedBy_load

theorem Level.LoadedBy.mem_children {args : List (String × Value)} {below : Level}
    {items : List LoadItem} (loaded : l.LoadedBy items)
    (loads : ∀ x : LoadItem, x.name = name → (x ∈ l.load ↔ x ∈ s.nestedLoad c name args below))
    (y : LoadItem) :
    y ∈ (items.filter (·.name == name)).flatMap LoadItem.children ↔
      y ∈ s.carried c name below := by
  rw [List.mem_flatMap, Site.mem_carried args]
  constructor
  · rintro ⟨x, member, inside⟩
    obtain ⟨present, same⟩ := List.mem_filter.1 member
    have named : x.name = name := by simpa using same
    rcases List.mem_append.1 (loaded.2 x present) with selected | fetched
    · obtain ⟨field, -, rfl⟩ := List.mem_map.1 selected
      exact absurd inside List.not_mem_nil
    · exact ⟨x, (loads x named).1 fetched, inside⟩
  · rintro ⟨x, member, inside⟩
    have named := Site.nestedLoad_name member
    have present := loaded.1 x ((loads x named).2 member)
    exact ⟨x, List.mem_filter.2 ⟨present, by simpa using named⟩, inside⟩

/-- At the end of a walk is all that the level there loads if every step carries it,
and else nothing. -/
theorem Accepts.loadAt_walk {items : List LoadItem} {template final : List TemplateItem}
    {path : List String} (h : Accepts c e s requests l) (same : l.template = template)
    (loaded : l.LoadedBy items) (walk : Walk c s template path t final) :
    s.carriesAlong c path = true ∧
        (∃ requests' l', Accepts c e t requests' l' ∧ l'.template = final ∧
          l'.LoadedBy (loadAt items path)) ∨
      s.carriesAlong c path = false ∧ loadAt items path = [] := by
  induction walk generalizing requests l items with
  | here s template => exact Or.inl ⟨rfl, requests, l, h, same, loaded⟩
  | @down s t u name path template inner final shown under onward ih =>
    subst same
    obtain ⟨t', args, requests', below, leads, accepted, template, loads⟩ := h.level_below shown
    rw [under] at leads
    obtain rfl := Option.some.inj leads
    have step := loaded.mem_children loads
    rw [Site.carriesAlong, under, Option.any_some, loadAt]
    cases carries : s.carries c name with
    | true =>
      have between : below.LoadedBy _ := Site.loadedBy_carried carries
      rw [Bool.true_and]
      refine ih accepted template ⟨?_, ?_⟩
      · intro x member
        exact (step x).2 (between.1 x member)
      · intro x member
        exact between.2 x ((step x).1 member)
    | false =>
      right
      rw [Bool.false_and]
      refine ⟨rfl, ?_⟩
      have none : (items.filter (·.name == name)).flatMap LoadItem.children = [] := by
        rw [List.eq_nil_iff_forall_not_mem]
        intro x member
        have carried := (step x).1 member
        rw [Site.carried, carries, if_neg Bool.false_ne_true] at carried
        exact absurd carried List.not_mem_nil
      rw [none, loadAt_nil]

theorem Accepts.loads {resource : String} {item : TemplateItem}
    (h : Accepts c e (.record resource) requests l) (shown : item ∈ l.template)
    (derived : (Site.record resource).isLoaded c item.name = true) :
    ∃ x ∈ l.load, x.name = item.name := by
  obtain ⟨request, part, own, -, loads⟩ := h.shows shown
  suffices present : part.load ≠ [] by
    obtain ⟨x, member⟩ := List.exists_mem_of_ne_nil _ present
    have named := own.load_name member
    exact ⟨x, (loads x named).2 member, named⟩
  obtain ⟨r, found⟩ := Option.isSome_iff_exists.1 h.entered.1
  have shape := Site.kind_record found item.name
  cases own with
  | bare plain =>
    cases kind : classify c r item.name <;> rw [kind] at shape <;>
      simp_all [Site.bareLevel, Site.bareLoad, Site.takesBare, Site.isLoaded]
  | nested args asked under inner =>
    cases kind : classify c r item.name <;> rw [kind] at shape <;>
      simp_all [Site.nestedLevel, Site.nestedLoad, Site.under, Site.ofField, Site.isLoaded]

/-- A field of a record that does not come with it is loaded at its place in the template
if and only if every step on the way there carries what is loaded. -/
theorem plan_loads_iff_carried {root action : String} {selection : Value}
    (h : plan c root action selection e = .ok l) :
    ∃ s, Site.ofResult c root action = some s ∧
      ∀ path resource items, Walk c s l.template path (.record resource) items →
        ∀ item ∈ items, (Site.record resource).isLoaded c item.name = true →
          ((∃ x ∈ loadAt l.load path, x.name = item.name) ↔ s.carriesAlong c path = true) := by
  obtain ⟨s, result, accepted⟩ := plan_accepts h
  refine ⟨s, result, ?_⟩
  intro path resource items walk item shown derived
  rcases accepted.loadAt_walk rfl l.loadedBy_load walk with
    ⟨carries, requests, l', reached, rfl, loaded⟩ | ⟨stops, none⟩
  · obtain ⟨x, member, named⟩ := reached.loads shown derived
    have present : ∃ x ∈ loadAt l.load path, x.name = item.name := ⟨x, loaded.1 x member, named⟩
    exact iff_of_true present carries
  · have absent : ¬∃ x ∈ loadAt l.load path, x.name = item.name := by
      rw [none]
      rintro ⟨x, member, -⟩
      exact List.not_mem_nil member
    exact iff_of_false absent (by rw [stops]; exact Bool.false_ne_true)

theorem tour_loads_iff_carried :
    plan Travel.catalog "Trip" "read" Travel.tour none = .ok Travel.tourPlan ∧
      ∃ s, Site.ofResult Travel.catalog "Trip" "read" = some s ∧
        ∀ path resource items,
          Walk Travel.catalog s Travel.tourPlan.template path (.record resource) items →
          ∀ item ∈ items, (Site.record resource).isLoaded Travel.catalog item.name = true →
            ((∃ x ∈ loadAt Travel.tourPlan.load path, x.name = item.name) ↔
              s.carriesAlong Travel.catalog path = true) :=
  ⟨Travel.plan_tour, plan_loads_iff_carried Travel.plan_tour⟩

/-- The label of the stop in a slot of a trip is shown, and not loaded. -/
theorem not_all_shown_loaded :
    ¬∀ (c : Catalog) (root action : String) (selection : Value) (e : Exposure) (l : Level)
        (s : Site) (path : List String) (resource : String) (items : List TemplateItem),
      plan c root action selection e = .ok l → Site.ofResult c root action = some s →
        Walk c s l.template path (.record resource) items →
        ∀ item ∈ items, (Site.record resource).isLoaded c item.name = true →
          ∃ x ∈ loadAt l.load path, x.name = item.name := by
  intro all
  have result : Site.ofResult Travel.catalog "Trip" "read" = some (.record "Trip") := by
    with_unfolding_all rfl
  have slots : (Site.record "Trip").under Travel.catalog "span" =
      some (.slots [⟨"from", .resource "Stop", true⟩] []) := by
    with_unfolding_all rfl
  have inSlot : (Site.slots [⟨"from", .resource "Stop", true⟩] []).under Travel.catalog "from" =
      some (.record "Stop") := by
    with_unfolding_all rfl
  have derived : (Site.record "Stop").isLoaded Travel.catalog "label" = true := by
    with_unfolding_all rfl
  have shown : .nested "span" [.nested "from" [.field "label"]] ∈ Travel.tourPlan.template := by
    simp [Travel.tourPlan]
  have onward : Walk Travel.catalog _ [.nested "from" [.field "label"]] ["from"]
      (.record "Stop") [.field "label"] :=
    .down (List.mem_singleton_self _) inSlot (.here _ _)
  have unloaded : loadAt Travel.tourPlan.load ["span", "from"] = [] := by
    with_unfolding_all rfl
  obtain ⟨x, member, -⟩ := all _ _ _ _ _ _ _ _ _ _ Travel.plan_tour result
    (.down shown slots onward) _ (List.mem_singleton_self _) derived
  rw [unloaded] at member
  exact List.not_mem_nil member

end FieldPlan
