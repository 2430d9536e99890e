import FieldPlan.Proofs.Accepts.Fields
import FieldPlan.Proofs.Pointing

/-! Where a rejection below a record points. Every kind of field hands its nested selection on
under its own name, so that each layer points at what the layers below turn down. -/
namespace FieldPlan
namespace Descent
variable {c : Catalog} {e : Exposure} {f : Descend}
variable {r : Resource} {resource name spelled : String} {path : List String}
variable {requests : List (Value × Request)} {request : Request} {nested : Value}

section
variable (found : c.resource? resource = some r)
variable (asked : (.str spelled, request) ∈ requests)
variable (named : (Site.record resource).resolve c spelled = name)
include asked named

theorem missing_points (detail : List (String × String)) :
    Outcome.Points c (.record resource) requests path
      (unknown (path ++ [name]) detail : Outcome Level) := by
  rw [← named]
  exact .unknown_entry asked detail

theorem checked_points {α : Type} {x : Outcome α} (checks : x.Checks (path ++ [name]) name) :
    x.Points c (.record resource) requests path := by
  rw [← named] at checks
  exact .checked asked checks

theorem leaf_points {kind : Classification} (known : kind ≠ .notFound)
    (sound : ∀ way, kind ≠ .crashed way) :
    (leaf kind name path).Points c (.record resource) requests path :=
  checked_points asked named (leaf_checks known sound)

omit asked named in
theorem summaryType_points :
    (summaryType c r name).Points c (.record resource) requests path := by
  unfold summaryType
  split
  · exact .crash _
  · exact .ok _
  · exact .ok _

variable (given : request.nested? = some nested) (below : PointsBelow c (nested.weight + 1) f)
include found given

theorem under_points {x : Outcome Level} {t : Site} (under : Site.ofField c r name = some t)
    (inner : x.Points c t (Selection.requested ((Site.record resource).given c name nested))
      (path ++ [name])) : x.Points c (.record resource) requests path := by
  rw [← named] at inner
  refine .down asked given ?_ inner
  rw [named, Site.under, found, Option.bind_some, under]

include below

theorem linkField_points (kind : classify c r name = .relationship) :
    (linkField f r name nested path).Points c (.record resource) requests path := by
  have shape := Site.kind_record found name
  rw [kind] at shape
  have weight := Selection.weight_normalize nested
  refine (checked_points asked named (Selection.requireSome_checks _)).bind ?_
  intro fields listed
  have same := Selection.requireSome_eq listed
  rw [same] at weight
  split
  · exact .crash _
  · next link present =>
    refine Outcome.Points.bind ?_ fun _ _ => .ok _
    refine under_points found asked named given (ofField_link kind present) ?_
    have inner := below (.records link.destination link.isMany) (.list fields) (path ++ [name])
      (by omega)
    rwa [Site.given, shape, Selection.requested_of_normalize same]

theorem embeddedField_points
    (kind : classify c r name = .embeddedResource ∨ classify c r name = .embeddedResourceArray) :
    (embeddedField c f r name nested path).Points c (.record resource) requests path := by
  have shape := Site.kind_record found name
  have weight := Selection.weight_normalize nested
  refine (checked_points asked named (Selection.requireSome_checks _)).bind ?_
  intro fields listed
  have same := Selection.requireSome_eq listed
  rw [same] at weight
  split
  · exact .crash _
  · next a stored =>
    split
    · exact missing_points asked named []
    · next embedded typed =>
      refine Outcome.Points.bind ?_ fun _ _ => .ok _
      refine under_points found asked named given (ofField_embedded kind stored typed) ?_
      have inner := below (.records embedded false) (.list fields) (path ++ [name]) (by omega)
      have itself : (Site.record resource).given c name nested = nested := by
        rcases kind with kind | kind <;> simp only [Site.given, shape, kind]
      rw [itself, Selection.requested_of_normalize same]
      exact inner

theorem calledField_points (kind : classify c r name = .calculationWithArgs) :
    (calledField c f r name nested path).Points c (.record resource) requests path := by
  have shape := Site.kind_record found name
  rw [kind] at shape
  simp only [calledField]
  split
  · exact missing_points asked named []
  · next calculation present =>
    split
    · exact checked_points asked named (.reject (by decide))
    · next form =>
      refine (checked_points asked named (Arguments.resolve_checks _)).bind ?_
      intro args resolved
      refine Outcome.Points.bind ?_ ?_
      · cases c.requiresSelection calculation.type with
        | true => exact checked_points asked named (calledSelection_checks _)
        | false => exact .ok _
      · intro selection chosen
        refine Outcome.Points.bind ?_ fun _ _ => .ok _
        refine under_points found asked named given (ofField_called kind present) ?_
        have lighter := weight_calledSelection_le chosen
        have fieldsLighter := @weight_formFields_le nested (by simpa using form)
        have inner := below (.ofType calculation.type) selection (path ++ [name]) (by omega)
        rwa [Site.given, shape, ← requested_calledSelection chosen, ← Site.ofPosition_ofType]

theorem derivedField_points {description : String} {type : Outcome (Option TypeRef)}
    (kind : classify c r name = .calculationComplex ∨ classify c r name = .complexAggregate)
    (resolved : type.Points c (.record resource) requests path)
    (under : ∀ t, type = .ok t → Site.ofField c r name = some (Site.ofPosition c (.ofType t))) :
    (derivedField f description type name nested path).Points c (.record resource) requests
      path := by
  have shape := Site.kind_record found name
  refine (checked_points asked named (withoutForm_checks nested)).bind ?_
  intro fields stripped
  refine resolved.bind ?_
  intro t typed
  refine (checked_points asked named (Selection.requireSome_checks _)).bind ?_
  intro listed required
  refine Outcome.Points.bind ?_ fun _ _ => .ok _
  refine under_points found asked named given (under t typed) ?_
  have normal := Selection.requireSome_eq required
  have weight := Selection.weight_normalize fields
  rw [normal] at weight
  have lighter := weight_withoutForm_le stripped
  have inner := below (.ofType t) (.list listed) (path ++ [name]) (by omega)
  have form : (Site.record resource).given c name nested = fields := by
    rw [withoutForm_ok stripped]
    rcases kind with kind | kind <;> simp only [Site.given, shape, kind]
  rwa [form, Selection.requested_of_normalize normal]

theorem unionField_points (kind : classify c r name = .unionAttribute) :
    (unionField c f r name nested path).Points c (.record resource) requests path := by
  have shape := Site.kind_record found name
  rw [kind] at shape
  unfold unionField
  split
  · next declared typed =>
    refine Outcome.Points.bind ?_ fun _ _ => .ok _
    refine under_points found asked named given (ofField_attribute typed (.inl kind)) ?_
    rw [Site.given, shape]
    exact unionMembers_points (below.mono (Nat.le_succ _))
  · exact missing_points asked named []

theorem structField_points (kind : classify c r name = .typedStruct) :
    (structField c f r name nested path).Points c (.record resource) requests path := by
  have shape := Site.kind_record found name
  rw [kind] at shape
  simp only [structField]
  split
  · next struct typed =>
    refine (checked_points asked named (Selection.requireSome_checks _)).bind ?_
    intro fields listed
    obtain rfl := Selection.requireSome_eq listed
    refine Outcome.Points.bind ?_ fun _ _ => .ok _
    refine under_points found asked named given (ofField_attribute typed (.inr (.inl kind))) ?_
    rw [Site.given, shape]
    exact structMembers_points (below.mono (Nat.le_succ _))
  · exact missing_points asked named []

theorem tupleField_points (kind : classify c r name = .tuple) :
    (tupleField c f r name nested path).Points c (.record resource) requests path := by
  have shape := Site.kind_record found name
  rw [kind] at shape
  simp only [tupleField]
  split
  · next declared present =>
    refine (checked_points asked named (Selection.requireSome_checks _)).bind ?_
    intro fields listed
    obtain rfl := Selection.requireSome_eq listed
    refine Outcome.Points.bind ?_ fun _ _ => .ok _
    refine under_points found asked named given (ofField_tuple kind present) ?_
    rw [Site.given, shape]
    exact plainSlots_points (below.mono (Nat.le_succ _))
  · exact missing_points asked named []

theorem structured_points :
    (structured c f r (classify c r name) name nested path).Points c (.record resource) requests
      path := by
  cases kind : classify c r name with
  | relationship => exact linkField_points found asked named given below kind
  | embeddedResource => exact embeddedField_points found asked named given below (.inl kind)
  | embeddedResourceArray => exact embeddedField_points found asked named given below (.inr kind)
  | calculationWithArgs => exact calledField_points found asked named given below kind
  | calculationComplex =>
    exact derivedField_points found asked named given below (.inl kind) (.ok _)
      fun _ => ofField_derived kind
  | complexAggregate =>
    exact derivedField_points found asked named given below (.inr kind) summaryType_points
      fun _ => ofField_summed kind
  | unionAttribute => exact unionField_points found asked named given below kind
  | typedStruct => exact structField_points found asked named given below kind
  | tuple => exact tupleField_points found asked named given below kind
  | crashed way => exact .crash way
  | _ => exact checked_points asked named (.reject (by decide))

end

/-! ### Whole selections -/

theorem recordEntry_points (found : c.resource? resource = some r) {entry : Entry}
    (entered : Entered c f (.record resource) requests entry) :
    (recordEntry c e f r path entry).Points c (.record resource) requests path := by
  obtain ⟨asked, named, below⟩ := entered
  unfold recordEntry
  split
  · exact .unknown_spelled asked _
  · exact .crash _
  · next visible sound =>
    have same := visibleKind_eq visible sound
    rw [same] at visible sound ⊢
    split
    · exact leaf_points asked named visible sound
    · next v given => exact structured_points found asked named given (below v given)

theorem entered_points {selection : Value} (below : PointsBelow c selection.weight f) :
    (do record c e f (← enter c e resource path) selection path).Points c (.record resource)
      (Selection.requested selection) path := by
  have weight := Selection.weight_normalize selection
  have refused : (enter c e resource path).Points c (.record resource)
      (Selection.requested selection) path := by
    unfold enter
    split
    · split
      · exact .ok _
      · exact .unknown_level []
    · exact .unknown_level []
  refine refused.bind ?_
  intro r entered
  have found := (enter_ok entered).1
  unfold record
  split
  · next fields same =>
    rw [same, Value.weight] at weight
    rw [Selection.requested_of_normalize same, ← Site.resolve_record found]
    exact level_points (s := .record resource) (below.mono (by omega))
      fun _ => recordEntry_points found
  · exact .unsupported _

theorem typed_points {t : TypeRef} {selection : Value} (below : PointsBelow c selection.weight f) :
    (typed c e f t selection path).Points c (.ofType c t) (Selection.requested selection)
      path := by
  have weight := Selection.weight_normalize selection
  rw [← Site.ofType_element]
  cases shape : t.element with simp only [typed, shape]
  | resource name => exact entered_points below
  | map declared => exact container_points below
  | keyword declared => exact container_points below
  | tuple declared => exact container_points below
  | struct instanceOf =>
    cases instanceOf with
    | none => exact untyped_points below
    | some name =>
      rw [Site.ofType]
      dsimp only
      split
      · exact entered_points below
      · exact untyped_points below
  | typedStruct name =>
    refine (Selection.requireSome_points _).bind ?_
    intro fields listed
    have same := Selection.requireSome_eq listed
    rw [same] at weight
    rw [Selection.requested_of_normalize same]
    exact structMembers_points (below.mono (Nat.le_of_eq weight))
  | union declared => exact unionMembers_points below
  | any => exact untyped_points below
  | primitive kind oneOf =>
    split
    · exact .level fun _ last => last
    · exact .ok _
  | array item => exact absurd shape (Site.element_ne_array t item)

theorem layer_points {position : Position} {selection : Value}
    (below : PointsBelow c selection.weight f) :
    (layer c e f position selection path).Points c (.ofPosition c position)
      (Selection.requested selection) path := by
  cases position with
  | records name many => exact entered_points below
  | value t => exact typed_points below
  | untyped => exact untyped_points below

end Descent

theorem descend_points (c : Catalog) (e : Exposure) (position : Position) (selection : Value)
    (path : List String) :
    (descend c e position selection path).Points c (.ofPosition c position)
      (Selection.requested selection) path := by
  induction weight : selection.weight using Nat.strongRecOn
    generalizing position selection path with
  | ind n ih =>
    subst weight
    rw [descend_eq]
    apply Descent.layer_points
    intro position v path lighter
    exact ih v.weight lighter position v path rfl

theorem Rejection.document_path (r : Rejection) :
    r.document.get? "path" = some (.str (dotted r.path)) := rfl

/-- Whatever is turned down, once there is an action, is pointed at by the names on the way
to it, and a field that is named is the last of them. -/
theorem plan_rejection_points {c : Catalog} {root action : String} {selection : Value}
    {e : Exposure} {r : Rejection} (h : plan c root action selection e = .error (.rejected r))
    (chosen : r.kind ≠ .actionNotFound) :
    ∃ s way t requests, Site.ofResult c root action = some s ∧
      Asked c s (Selection.requested selection) way t requests ∧ r.At c way t requests ∧
      r.document.get? "path" = some (.str (".".intercalate r.path)) ∧
      ∀ name, r.field = some name → r.path.getLast? = some name := by
  cases known : c.resource root with
  | error fault =>
    rw [plan, known] at h
    cases h
  | ok found =>
    have present := Catalog.resource_ok known
    have name := Catalog.resource?_name present
    simp only [plan, known, ofCatalog, bind, Except.bind] at h
    split at h
    · cases h
      exact absurd rfl chosen
    · next a picked =>
      obtain ⟨⟨way, t, requests, asked, place⟩, field⟩ := descend_points _ _ _ _ _ r h
      rw [Selection.requested_normalize, name] at asked
      refine ⟨_, way, t, requests, ?_, asked, place, r.document_path, field⟩
      simp [Site.ofResult, present, picked, name]

def Travel.bossTwice : Value :=
  .list [.str "id", object [
    ("guide", .list [object [("boss", .list [.str "fullName", .str "full_name"])]])]]

def Travel.bossRefused : Rejection :=
  ⟨.duplicateField, ["guide", "boss", "full_name"], some "full_name", []⟩

theorem boss_pointed_at :
    plan Travel.catalog "Trip" "read" Travel.bossTwice none =
        .error (.rejected Travel.bossRefused) ∧
      ∃ s way t requests, Site.ofResult Travel.catalog "Trip" "read" = some s ∧
        Asked Travel.catalog s (Selection.requested Travel.bossTwice) way t requests ∧
        Travel.bossRefused.At Travel.catalog way t requests ∧
        Travel.bossRefused.document.get? "path" =
          some (.str (".".intercalate Travel.bossRefused.path)) ∧
        ∀ name, Travel.bossRefused.field = some name →
          Travel.bossRefused.path.getLast? = some name := by
  have refused : plan Travel.catalog "Trip" "read" Travel.bossTwice none =
      .error (.rejected Travel.bossRefused) := by
    with_unfolding_all rfl
  exact ⟨refused, plan_rejection_points refused (by decide)⟩

end FieldPlan
