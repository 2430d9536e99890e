import FieldPlan.Proofs.Ending
import FieldPlan.Proofs.Untyped

/-! Which values are taken apart. A value that asks for no selection is passed on with a copy of
whatever is selected of it, and the work on it never comes to a record, a struct or a union; a value
that asks for one takes nothing but a list or a mapping. -/
namespace FieldPlan

namespace Catalog
variable {c : Catalog} {t : TypeRef}

/-- A value with fields or members of its own: a record, a struct or a union. -/
inductive Structured (c : Catalog) : TypeRef → Prop
  | record (name : String) : Structured c (.resource name)
  | instanceOf {name : String} (present : c.hasResource name = true) :
      Structured c (.struct (some name))
  | struct (name : String) : Structured c (.typedStruct name)
  | union (members : List (Member TypeRef)) : Structured c (.union members)

theorem Structured.requiresSelection (h : c.Structured t) : c.requiresSelection t = true := by
  cases h with
  | instanceOf present => exact present
  | _ => rfl

theorem requiresSelection_element (t : TypeRef) :
    c.requiresSelection t.element = c.requiresSelection t := by
  fun_induction TypeRef.element t with
  | case1 item ih => exact ih
  | case2 t other => rfl

theorem parts_of_whole (whole : c.requiresSelection t = false) : c.parts t = [] := by
  cases t with
  | map declared | keyword declared | tuple declared =>
    have none : declared = [] := by simpa [Catalog.requiresSelection, TypeRef.element] using whole
    rw [none]
    rfl
  | typedStruct name => cases whole
  | union members => cases whole
  | _ => rfl

end Catalog

namespace Descent
variable {c : Catalog} {e : Exposure} {f : Descend} {path : List String} {v : Value} {t : TypeRef}

/-! ### Values that are taken whole -/

/-- The work on values that ask for no selection goes on to nothing but such values. -/
theorem closed_whole (c : Catalog) (e : Exposure) :
    Closed c e fun t => c.requiresSelection t = false where
  any := rfl
  part whole inside := by
    rw [Catalog.parts_of_whole whole] at inside
    cases inside
  record whole present := by
    have asks := (Catalog.Structured.instanceOf present).requiresSelection
    rw [whole] at asks
    cases asks
  field whole := by cases whole
  link whole := by cases whole

/-- A step asks only for work on types that the work does not leave. -/
theorem Asks.stays {P : TypeRef → Prop} (closed : Closed c e P) {there here : Call}
    (asks : Asks c e there here) (reached : P here.position.held) : P there.position.held := by
  -- work that differs only outside of `P` would be the same for the step
  obtain ⟨f, g, elsewhere, differ⟩ := asks
  by_contra outside
  have same : ∀ position, P position.held → f position = g position := by
    intro position inside
    funext selection path
    apply elsewhere ⟨position, selection, path⟩
    rintro rfl
    exact outside inside
  apply differ
  obtain ⟨position, selection, path⟩ := here
  unfold Call.run
  by_cases array : ∃ item, position = .value (.array item)
  · obtain ⟨item, rfl⟩ := array
    have held : P (Position.ofType (some item)).held := by
      rw [Position.held_ofType]
      exact reached
    rw [step, step, same _ held]
  · rw [step_layer (not_exists.1 array), step_layer (not_exists.1 array)]
    apply layer_related (R := Outcome.same) (Exposes.refl _ _ c e) closed reached
    intro position inside v path lighter
    exact congrFun (congrFun (same position inside) v) path

theorem Asks.all_stay {P : TypeRef → Prop} (closed : Closed c e P) {there here : Call}
    (asks : Relation.ReflTransGen (Asks c e) there here) (reached : P here.position.held) :
    P there.position.held := by
  induction asks using Relation.ReflTransGen.head_induction_on with
  | refl => exact reached
  | head first onward ih => exact first.stays closed ih

theorem typed_whole (whole : c.requiresSelection t = false) :
    typed c e f t v path = untyped f v path ∨
      ∃ kind oneOf, t.element = .primitive kind oneOf := by
  unfold Catalog.requiresSelection at whole
  unfold typed
  cases shape : t.element with
  | map declared | keyword declared | tuple declared =>
    have none : declared.isEmpty = true := by simpa [shape] using whole
    exact .inl (if_pos none)
  | struct instanceOf =>
    cases instanceOf with
    | none => exact .inl rfl
    | some name =>
      have absent : c.hasResource name = false := by simpa [shape] using whole
      refine .inl ?_
      simp only [absent, Bool.false_eq_true, if_false]
  | primitive kind oneOf => exact .inr ⟨kind, oneOf, rfl⟩
  | any => exact .inl rfl
  | array item => exact absurd shape (Site.element_ne_array t item)
  | resource name | typedStruct name | union members => simp [shape] at whole

theorem copy_blank (blank : v.isBlank = true) : Selection.copy v = [] := by
  cases v with
  | list items =>
    obtain rfl := List.isEmpty_iff.1 blank
    rfl
  | mapping entries =>
    obtain rfl := List.isEmpty_iff.1 blank
    rfl
  | _ => rfl

theorem untyped_copies {l : Level} (h : descend c e .untyped v path = .ok l) :
    l = ⟨[], [], Selection.copy v⟩ :=
  (((descend_untyped_iff c e v path).1 l).1 h).2

theorem whole_copies {type : Option TypeRef} (whole : type.any c.requiresSelection = false)
    {l : Level} (h : descend c e (.ofType type) v path = .ok l) :
    l = ⟨[], [], Selection.copy v⟩ := by
  cases type with
  | none => exact untyped_copies h
  | some t =>
    rw [descend_ofType] at h
    have either : typed c e (descend c e) t v path = untyped (descend c e) v path ∨
        ∃ kind oneOf, t.element = .primitive kind oneOf := typed_whole whole
    rcases either with same | ⟨kind, oneOf, scalar⟩
    · rw [same] at h
      have layered : descend c e .untyped v path = .ok l := by rwa [descend_eq]
      exact untyped_copies layered
    · rw [typed, scalar] at h
      dsimp only at h
      split at h
      · cases h
      · next blank =>
        cases h
        rw [copy_blank (by simpa using blank)]
        rfl

theorem whole_held {type : Option TypeRef} (whole : type.any c.requiresSelection = false) :
    c.requiresSelection (Position.ofType type).held = false := by
  cases type with
  | none => rfl
  | some t =>
    rw [Position.held_ofType, Catalog.requiresSelection_element]
    exact whole

/-! ### Values that ask for a selection -/

/-- A rejection of the level itself: nothing is to be seen there, or no list was given for it. -/
def TurnedDown (path : List String) (x : Outcome Level) : Prop :=
  ∃ r, x = .error (.rejected r) ∧ r.path = path ∧
    (r.kind = .unsupportedFieldCombination ∨ r.kind = .unknownField)

theorem turnedDown_unsupported (kind : String) : TurnedDown path (unsupported path kind) :=
  ⟨_, rfl, rfl, .inl rfl⟩

theorem entered_other (other : Selection.level? v = none) (name : String) :
    TurnedDown path (do record c e f (← enter c e name path) v path) := by
  unfold enter
  split
  · next r found =>
    split
    · change TurnedDown path (record c e f r v path)
      cases v with
      | list | mapping => cases other
      | _ => exact turnedDown_unsupported "resource"
    · exact ⟨_, rfl, rfl, .inr rfl⟩
  · exact ⟨_, rfl, rfl, .inr rfl⟩

theorem requireSome_other (other : Selection.level? v = none) (kind : String)
    (field : Option String) (next : List Value → Outcome Level) :
    TurnedDown path (Selection.requireSome kind path field (Selection.normalize v) >>= next) := by
  cases v with
  | list | mapping => cases other
  | _ => exact ⟨_, rfl, rfl, .inl rfl⟩

theorem plainSlots_other (other : Selection.level? v = none) (kind : String)
    (declared : List (Slot TypeRef)) :
    TurnedDown path (plainSlots c f kind declared (Selection.normalize v) path) := by
  cases v with
  | list | mapping => cases other
  | _ => exact turnedDown_unsupported kind

theorem typed_other (other : Selection.level? v = none) (needed : c.requiresSelection t = true) :
    TurnedDown path (typed c e f t v path) := by
  unfold Catalog.requiresSelection at needed
  unfold typed
  cases shape : t.element with
  | resource name => exact entered_other other name
  | map declared | keyword declared | tuple declared =>
    have filled : declared.isEmpty = false := by simpa [shape] using needed
    simp only [filled, Bool.false_eq_true, if_false]
    exact plainSlots_other other _ declared
  | struct instanceOf =>
    cases instanceOf with
    | none => simp [shape] at needed
    | some name =>
      have present : c.hasResource name = true := by simpa [shape] using needed
      simp only [present, if_true]
      exact entered_other other name
  | typedStruct name => exact requireSome_other other _ _ _
  | union members => exact requireSome_other other _ _ _
  | primitive | any | array => simp [shape] at needed

end Descent

/-- Where a value asks for no selection, what is accepted is copied, nothing is fetched, and no work
that this depends on comes to a record, a struct or a union. Where it asks for one, all but lists
and mappings are rejected. -/
theorem requiresSelection_decides (c : Catalog) (e : Exposure) (type : Option TypeRef)
    (selection : Value) (path : List String) :
    (type.any c.requiresSelection = false →
      (∀ l, descend c e (.ofType type) selection path = .ok l →
        l.select = [] ∧ l.load = [] ∧ l.template = Selection.copy selection) ∧
      ∀ there, Relation.ReflTransGen (Descent.Asks c e) there ⟨.ofType type, selection, path⟩ →
        ¬ c.Structured there.position.held) ∧
    (type.any c.requiresSelection = true →
      (∀ items, selection ≠ .list items) → (∀ entries, selection ≠ .mapping entries) →
        ∃ r, descend c e (.ofType type) selection path = .error (.rejected r) ∧ r.path = path ∧
          (r.kind = .unsupportedFieldCombination ∨ r.kind = .unknownField)) := by
  constructor
  · intro whole
    constructor
    · intro l accepted
      rw [Descent.whole_copies whole accepted]
      exact ⟨rfl, rfl, rfl⟩
    · intro there asks structured
      have stays := Descent.Asks.all_stay (Descent.closed_whole c e) asks (Descent.whole_held whole)
      rw [structured.requiresSelection] at stays
      cases stays
  · intro needed no_list no_mapping
    have other : Selection.level? selection = none := by
      cases selection with
      | list items => exact absurd rfl (no_list items)
      | mapping entries => exact absurd rfl (no_mapping entries)
      | _ => rfl
    cases type with
    | none => cases needed
    | some t =>
      rw [descend_ofType]
      exact Descent.typed_other other needed

/-- An open list of keywords takes whatever is selected of it; the stops of a trip take no text. -/
theorem keywords_copied_stops_refuse :
    Travel.catalog.requiresSelection (.keyword []) = false ∧
      descend Travel.catalog none (.ofType (some (.keyword [])))
        (.list [.str "town", Travel.object [("boss", .list [.str "town"])]]) [] =
          .ok ⟨[], [], [.field "town", .nested "boss" [.field "town"]]⟩ ∧
      Travel.catalog.requiresSelection (.array (.struct (some "Stop"))) = true ∧
      ∃ r, descend Travel.catalog none (.ofType (some (.array (.struct (some "Stop")))))
        (.str "town") ["halts"] = .error (.rejected r) ∧ r.path = ["halts"] := by
  have open_list : Travel.catalog.requiresSelection (.keyword []) = false := rfl
  have records : Travel.catalog.requiresSelection (.array (.struct (some "Stop"))) = true := by
    decide
  obtain ⟨l, accepted⟩ : ∃ l, descend Travel.catalog none (.ofType (some (.keyword [])))
      (.list [.str "town", Travel.object [("boss", .list [.str "town"])]]) [] = .ok l :=
    ⟨⟨[], [], [.field "town", .nested "boss" [.field "town"]]⟩, by with_unfolding_all rfl⟩
  obtain ⟨select, load, template⟩ := ((requiresSelection_decides Travel.catalog none
    (some (.keyword [])) (.list [.str "town", Travel.object [("boss", .list [.str "town"])]])
    []).1 open_list).1 l accepted
  obtain ⟨r, refused, place, -⟩ := (requiresSelection_decides Travel.catalog none
    (some (.array (.struct (some "Stop")))) (.str "town") ["halts"]).2 records nofun nofun
  refine ⟨open_list, ?_, records, r, refused, place⟩
  obtain ⟨_, _, _⟩ := l
  subst select load template
  exact accepted

end FieldPlan
