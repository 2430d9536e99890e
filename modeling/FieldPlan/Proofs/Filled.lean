import FieldPlan.Proofs.Walk
import FieldPlan.Proofs.Worked

/-! Structured values and what is selected of them. A field, slot or member whose type needs a
nested selection is shown with items below it, except where the selection for it is one of
three that select nothing and are taken all the same. -/
namespace FieldPlan

/-- The declared field needs a nested selection: its type does, or it is a link. -/
def Catalog.needsSelection (c : Catalog) (r : Resource) (name : String) : Bool :=
  match r.attribute? name, r.calculation? name, r.aggregate? name with
  | some stored, _, _ => c.requiresSelection stored.type
  | none, some derived, _ => c.requiresSelection derived.type
  | none, none, some summary => (c.aggregateType? r summary).any c.requiresSelection
  | none, none, none => (r.relationship? name).isSome

namespace Site
variable (c : Catalog)

def needs : Site → String → Bool
  | .record resource, name => (c.resource? resource).any fun r => c.needsSelection r name
  | .slots declared _, name => (slot? declared name).any fun slot => c.requiresSelection slot.type
  | .members declared, name => (member? declared name).any fun m => c.requiresSelection m.type
  | .untyped, _ => false
  | .closed, _ => false

/-- The selections that leave a name without items below it. -/
inductive Unfilled (s : Site) (name : String) : Request → Prop
  /-- By its name alone, as a plain field is taken whatever its type. -/
  | bare (plain : s.takesBare c name = true) : Unfilled s name .bare
  | whole {request : Request} {v : Value} (asked : request.nested? = some v)
      (whole : s.isWhole c name = true) : Unfilled s name request
  /-- By a list of empty mappings, and without any of them where the list is not checked. -/
  | blank {request : Request} {v : Value} {fields : List Value}
      (asked : request.nested? = some v)
      (listed : Selection.normalize (s.given c name v) = .list fields)
      (empty : ∀ element ∈ fields, element = .mapping [])
      (unchecked : fields = [] → s.isChecked c name = false) : Unfilled s name request

end Site

theorem Selection.walk_eq_nil {fields : List Value} (formed : WellFormed fields) :
    walk fields = [] ↔ ∀ element ∈ fields, element = .mapping [] := by
  rw [walk, List.flatMap_eq_nil_iff]
  refine forall₂_congr ?_
  intro element member
  obtain ⟨names, asks⟩ := formed element member
  constructor
  · intro none
    cases element with
    | mapping entries =>
      rw [requests?, Option.getD_some, List.map_eq_nil_iff] at none
      rw [none]
    | str s => cases none
    | tuple items =>
      rw [asks.1, Option.getD_some] at none
      have shape := asks.1
      rw [none] at shape
      unfold requests? at shape
      split at shape <;> simp_all
    | _ => cases asks.1
  · intro empty
    rw [empty]
    rfl

variable {c : Catalog} {e : Exposure} {s t : Site} {spelled : String} {request : Request}
variable {requests final : List (Value × Request)} {way : List String} {l : Level}

/-! ### The items of the entries -/

theorem Accepts.own (h : Accepts c e s requests l) (member : (.str spelled, request) ∈ requests) :
    ∃ part, Part c e s (s.resolve c spelled) request part ∧
      ∀ item : TemplateItem, item.name = s.resolve c spelled →
        (item ∈ l.template ↔ item ∈ part.template) := by
  revert member
  refine h.parts (motive := fun requests l => (.str spelled, request) ∈ requests → ∃ part,
    Part c e s (s.resolve c spelled) request part ∧ ∀ item : TemplateItem,
      item.name = s.resolve c spelled → (item ∈ l.template ↔ item ∈ part.template)) ?_ ?_
  · intro absent
    exact absurd absent List.not_mem_nil
  · intro spelled' request' part rest l first fresh others member
    rcases List.mem_cons.1 member with same | later
    · cases same
      refine ⟨part, first, ?_⟩
      intro item named
      rw [Level.append_template, List.mem_append, or_iff_left]
      intro shown
      rw [← named] at fresh
      exact fresh (List.mem_map_of_mem shown)
    · obtain ⟨part', own, shows⟩ := others later
      refine ⟨part', own, ?_⟩
      intro item named
      rw [Level.append_template, List.mem_append, ← shows item named, or_iff_right]
      intro shown
      have clash : s.resolve c spelled' = s.resolve c spelled := by
        have here := List.mem_map_of_mem (f := TemplateItem.name) shown
        rw [first.template_name, List.mem_singleton] at here
        rw [← here, named]
      obtain ⟨shownItem, single, name⟩ := List.map_eq_singleton_iff.1 own.template_name
      have present : shownItem ∈ l.template :=
        (shows shownItem name).2 (by rw [single]; exact List.mem_singleton_self _)
      rw [clash, ← name] at fresh
      exact fresh (List.mem_map_of_mem present)

theorem Accepts.template_eq_nil (h : Accepts c e s requests l) :
    l.template = [] ↔ requests = [] := by
  cases h with
  | nil entered => exact ⟨fun _ => rfl, fun _ => rfl⟩
  | bare resolved plain fresh others => exact ⟨nofun, nofun⟩
  | nested args resolved asked under inner fresh others => exact ⟨nofun, nofun⟩

theorem Asked.plain (h : Asked c s requests way t final) (plain : s = .untyped ∨ s = .closed) :
    t = .untyped ∨ t = .closed := by
  induction h with
  | here s requests => exact plain
  | down member asked under onward ih =>
    apply ih
    rcases plain with rfl | rfl
    · cases under
      exact Or.inl rfl
    · cases under

/-- The way down the selection is a way down the template, as far as something is declared. -/
theorem Accepts.walk_asked (h : Accepts c e s requests l) (way' : Asked c s requests way t final)
    (declared : ¬(t = .untyped ∨ t = .closed)) :
    ∃ below, Accepts c e t final below ∧ Walk c s l.template way t below.template := by
  induction way' generalizing l with
  | here s requests => exact ⟨l, h, .here s l.template⟩
  | down member asked under onward ih =>
    obtain ⟨part, own, shows⟩ := h.own member
    cases own with
    | bare plain => cases asked
    | nested args asked' under' inner =>
      rw [asked] at asked'
      cases asked'
      rw [under] at under'
      cases under'
      cases whole : Site.isWhole c _ _ with
      | true => exact absurd (onward.plain (Site.under_whole whole under)) declared
      | false =>
        obtain ⟨below, accepted, walk⟩ := ih inner declared
        refine ⟨below, accepted, .down ((shows _ rfl).2 ?_) under walk⟩
        rw [Site.nestedLevel, whole, if_neg Bool.false_ne_true]
        exact List.mem_singleton_self _

/-! ### What an accepted entry gives -/

/-- Where no check is made for a type that needs a selection, something is declared. -/
theorem Site.ofType_declared {type : TypeRef} (needed : c.requiresSelection type = true)
    (unchecked : type.isChecked = false) :
    ¬(Site.ofType c type = .untyped ∨ Site.ofType c type = .closed) := by
  rw [← ofType_element]
  unfold Catalog.requiresSelection at needed
  unfold TypeRef.isChecked at unchecked
  cases shape : type.element with
  | array item => exact absurd shape (element_ne_array type item)
  | struct instanceOf => cases instanceOf <;> simp_all [ofType]
  | _ => simp_all [ofType, ofSlots]

theorem Site.Worked.listed {selection : Value} (h : s.Worked c e selection)
    (some : ¬(s = .untyped ∨ s = .closed) ∨ selection.isBlank = false) :
    ∃ fields, Selection.normalize selection = .list fields ∧ Selection.WellFormed fields := by
  cases h with
  | blank plain blank =>
    rcases some with declared | filled
    · exact absurd plain declared
    · rw [blank] at filled
      contradiction
  | level listed read each => exact ⟨_, listed, (Selection.read_ok_iff.1 read).1⟩

theorem Site.TakesNested.listed {name : String} {v : Value} (h : s.TakesNested c e name v)
    (needed : s.needs c name = true) (whole : s.isWhole c name = false) :
    ∃ fields, Selection.normalize (s.given c name v) = .list fields ∧
      Selection.WellFormed fields ∧ (fields = [] → s.isChecked c name = false) := by
  obtain ⟨⟨t, under, worked⟩, checks⟩ := h
  cases checked : s.isChecked c name with
  | true =>
    obtain ⟨fields, listed, some⟩ := checks checked
    have filled : (s.given c name v).isBlank = false := by
      rw [← Selection.isBlank_normalize, listed, Value.isBlank, List.isEmpty_eq_false_iff]
      exact some
    obtain ⟨fields', listed', formed⟩ := worked.listed (.inr filled)
    rw [listed] at listed'
    cases listed'
    exact ⟨fields, listed, formed, fun none => absurd none some⟩
  | false =>
    suffices declared : ¬(t = .untyped ∨ t = .closed) by
      obtain ⟨fields, listed, formed⟩ := worked.listed (.inl declared)
      exact ⟨fields, listed, formed, fun _ => rfl⟩
    cases s with
    | record resource =>
      rw [isChecked, whole] at checked
      contradiction
    | slots declared externals =>
      obtain ⟨slot, present, rfl⟩ := Option.map_eq_some_iff.1 under
      rw [needs, present, Option.any_some] at needed
      rw [isChecked, present, Option.any_some] at checked
      exact ofType_declared needed checked
    | members declared =>
      obtain ⟨m, present, rfl⟩ := Option.map_eq_some_iff.1 under
      rw [needs, present, Option.any_some] at needed
      rw [isChecked, present, Option.any_some] at checked
      exact ofType_declared needed checked
    | untyped => contradiction
    | closed => contradiction

theorem Part.filled_iff {name : String} {part : Level} (h : Part c e s name request part)
    (taken : ∀ v, request.nested? = some v → s.TakesNested c e name v)
    (needed : s.needs c name = true) :
    (∃ inner, .nested name inner ∈ part.template ∧ inner ≠ []) ↔ ¬s.Unfilled c name request := by
  cases h with
  | bare plain =>
    constructor
    · intro filled
      obtain ⟨inner, shown, -⟩ := filled
      simp [Site.bareLevel] at shown
    · intro filled
      exact absurd (.bare plain) filled
  | @nested t request v below args asked under inner =>
    cases whole : s.isWhole c name with
    | true =>
      constructor
      · intro filled
        obtain ⟨inner, shown, -⟩ := filled
        simp [Site.nestedLevel, whole] at shown
      · intro filled
        exact absurd (.whole asked whole) filled
    | false =>
      obtain ⟨fields, listed, formed, unchecked⟩ := (taken v asked).listed needed whole
      have nothing : below.template = [] ↔ ∀ element ∈ fields, element = .mapping [] := by
        rw [inner.template_eq_nil, Selection.requested_of_normalize listed,
          Selection.walk_eq_nil formed]
      have shown : (∃ inner, .nested name inner ∈ (s.nestedLevel c name args below).template ∧
          inner ≠ []) ↔ below.template ≠ [] := by
        simp [Site.nestedLevel, whole]
      rw [shown, Ne, nothing]
      apply not_congr
      constructor
      · intro empty
        exact .blank asked listed empty unchecked
      · intro unfilled
        cases unfilled with
        | bare => cases asked
        | whole asked' whole' =>
          rw [whole] at whole'
          contradiction
        | blank asked' listed' empty unchecked' =>
          rw [asked] at asked'
          cases asked'
          rw [listed] at listed'
          cases listed'
          exact empty

/-- An entry whose type needs a nested selection is shown with items below it, however deep it
is, just if its selection is none of the unfilled ones. -/
theorem plan_fills_iff {root action : String} {selection : Value}
    (h : plan c root action selection e = .ok l) :
    ∃ s, Site.ofResult c root action = some s ∧
      ∀ way t final, Asked c s (Selection.requested selection) way t final →
        ∀ spelled request, (.str spelled, request) ∈ final →
          t.needs c (t.resolve c spelled) = true →
          ∃ items, Walk c s l.template way t items ∧
            ((∃ inner, .nested (t.resolve c spelled) inner ∈ items ∧ inner ≠ []) ↔
              ¬t.Unfilled c (t.resolve c spelled) request) := by
  obtain ⟨s, result, accepted⟩ := plan_accepts h
  obtain ⟨s', result', worked⟩ := plan_worked h
  rw [result] at result'
  cases result'
  refine ⟨s, result, ?_⟩
  intro way t final asked spelled request member needed
  have declared : ¬(t = .untyped ∨ t = .closed) := by
    intro plain
    rcases plain with rfl | rfl <;> contradiction
  obtain ⟨below, reached, walk⟩ := accepted.walk_asked asked declared
  obtain ⟨v, worked, same⟩ := worked.asked asked
  obtain ⟨part, own, shows⟩ := reached.own member
  refine ⟨below.template, walk, ?_⟩
  rw [← own.filled_iff ?_ needed]
  · refine exists_congr ?_
    intro inner
    rw [shows _ rfl]
  · intro v' nested
    rw [← same] at member
    exact worked.takesNested member nested

namespace Travel

def hollow : Value := .list [object [("span", .list [object [("from", .list [])]])]]

def hollowPlan : Level := ⟨["span"], [], [.nested "span" [.nested "from" []]]⟩

end Travel

theorem hollow_taken_unfilled :
    plan Travel.catalog "Trip" "read" Travel.hollow none = .ok Travel.hollowPlan ∧
      ∃ t final items, Asked Travel.catalog (.record "Trip") (Selection.requested Travel.hollow)
          ["span"] t final ∧
        (.str "from", .keyed (.list [])) ∈ final ∧ t.needs Travel.catalog "from" = true ∧
        Walk Travel.catalog (.record "Trip") Travel.hollowPlan.template ["span"] t items ∧
        ¬∃ inner, .nested "from" inner ∈ items ∧ inner ≠ [] := by
  have accepted : plan Travel.catalog "Trip" "read" Travel.hollow none =
      .ok Travel.hollowPlan := by
    with_unfolding_all rfl
  have trip : Site.ofResult Travel.catalog "Trip" "read" = some (.record "Trip") := by
    with_unfolding_all rfl
  let span : Site := .slots [⟨"from", .resource "Stop", true⟩] []
  have under : (Site.record "Trip").under Travel.catalog
      ((Site.record "Trip").resolve Travel.catalog "span") = some span := by
    with_unfolding_all rfl
  have from_needs : span.needs Travel.catalog "from" = true := by
    with_unfolding_all rfl
  have unchecked : span.isChecked Travel.catalog "from" = false := by
    with_unfolding_all rfl
  have unfilled : span.Unfilled Travel.catalog "from" (.keyed (.list [])) :=
    .blank rfl rfl (fun _ absent => absurd absent List.not_mem_nil) fun _ => unchecked
  have asked : Asked Travel.catalog (.record "Trip") (Selection.requested Travel.hollow) ["span"]
      span [(.str "from", .keyed (.list []))] :=
    .down (List.mem_singleton_self _) rfl under (.here _ _)
  obtain ⟨s, result, fills⟩ := plan_fills_iff accepted
  rw [trip] at result
  cases result
  obtain ⟨items, walk, filled⟩ :=
    fills ["span"] span _ asked "from" _ (List.mem_singleton_self _) from_needs
  refine ⟨accepted, span, _, items, asked, List.mem_singleton_self _, from_needs, walk, ?_⟩
  intro some
  exact filled.1 some unfilled

end FieldPlan
