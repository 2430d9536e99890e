import FieldPlan.Proofs.Distinct
import FieldPlan.Proofs.Fetch
import FieldPlan.Proofs.HiddenField

/-! The work behind an accepted selection. Every level of it has been read and every entry
worked on, so that what an entry was checked for still holds of the nested selection that it
gives, at any depth. -/
namespace FieldPlan

/-- Unions and typed structs are checked for a selection of something wherever they stand. -/
def TypeRef.isChecked (t : TypeRef) : Bool :=
  match t.element with
  | .union _ => true
  | .typedStruct _ => true
  | _ => false

namespace Site
variable (c : Catalog) (e : Exposure)

/-- What stands under the name has to select something. Slots and members of unions leave this
to their types, of which only some check it. -/
def isChecked : Site → String → Bool
  | .record resource, name => !isWhole c (.record resource) name
  | .slots declared _, name => (slot? declared name).any fun slot => slot.type.isChecked
  | .members declared, name => (member? declared name).any fun m => m.type.isChecked
  | .untyped, _ => false
  | .closed, _ => false

/-- An entry of a level that has been worked on, by the site of the level. -/
inductive Works (path : List String) : Site → Entry → Prop
  | record {resource : String} {r : Resource} {entry : Entry} {part : Level}
      (entered : Descent.enter c e resource path = .ok r)
      (worked : Descent.recordEntry c e (descend c e) r path entry = .ok part) :
      Works path (.record resource) entry
  | slot {kind : String} {declared : List (Slot TypeRef)} {externals : List (String × String)}
      {entry : Entry} {part : Level}
      (worked : Descent.slotEntry c (descend c e) kind declared path entry = .ok part) :
      Works path (.slots declared externals) entry
  | member {declared : List (Member TypeRef)} {entry : Entry} {part : Level}
      (worked : Descent.unionEntry c (descend c e) declared path entry = .ok part) :
      Works path (.members declared) entry
  | untyped {entry : Entry} {part : Level}
      (worked : Descent.untypedEntry (descend c e) path entry = .ok part) :
      Works path .untyped entry

/-- A level that has been worked on, entry by entry. Where there is nothing to be selected, and
only there, the selection may also be blank. -/
inductive Worked (s : Site) (selection : Value) : Prop
  | blank (plain : s = .untyped ∨ s = .closed) (blank : selection.isBlank = true) :
      Worked s selection
  | level {fields : List Value} {path : List String} {entries : List Entry}
      (listed : Selection.normalize selection = .list fields)
      (read : Selection.read (s.resolve c) path fields = .ok entries)
      (each : ∀ entry ∈ entries, s.Works c e path entry) : Worked s selection

end Site

theorem Selection.requireSome_ok {kind : String} {path : List String} {field : Option String}
    {v : Value} {fields : List Value} (h : requireSome kind path field v = .ok fields) :
    v = .list fields ∧ fields ≠ [] := by
  obtain rfl := requireSome_eq h
  refine ⟨rfl, ?_⟩
  intro none
  rw [none] at h
  cases h

namespace Descent
variable {c : Catalog} {e : Exposure} {s : Site} {path : List String} {l : Level}

theorem collect_each {work : Entry → Outcome Level} {entries : List Entry}
    (h : collect work entries = .ok l) : ∀ entry ∈ entries, ∃ part, work entry = .ok part := by
  induction entries generalizing l with
  | nil =>
    intro entry absent
    exact absurd absent List.not_mem_nil
  | cons first rest ih =>
    obtain ⟨part, head, h⟩ := Outcome.bind_ok h
    obtain ⟨others, tail, -⟩ := Outcome.bind_ok h
    exact List.forall_mem_cons.2 ⟨⟨part, head⟩, ih tail⟩

theorem level_worked {selection : Value} {fields : List Value} {work : Entry → Outcome Level}
    (listed : Selection.normalize selection = .list fields)
    (works : ∀ entry part, work entry = .ok part → s.Works c e path entry)
    (h : (do let entries ← Selection.read (s.resolve c) path fields; collect work entries) =
      .ok l) : s.Worked c e selection := by
  obtain ⟨entries, read, collected⟩ := Outcome.bind_ok h
  refine .level listed read ?_
  intro entry member
  obtain ⟨part, worked⟩ := collect_each collected entry member
  exact works entry part worked

theorem untyped_worked {selection : Value} (h : untyped (descend c e) selection path = .ok l) :
    Site.Worked c e .untyped selection := by
  simp only [untyped] at h
  split at h
  · next blank =>
    rw [Selection.isBlank_normalize] at blank
    exact .blank (.inl rfl) blank
  · split at h
    · next fields listed => exact level_worked listed (fun _ _ => .untyped) h
    · simp [unsupported, reject] at h

theorem slots_worked {kind : String} {declared : List (Slot TypeRef)}
    {externals : List (String × String)} {selection : Value}
    (h : slots c (descend c e) kind (Selection.slotName (declared.map Slot.name) externals) declared
      (Selection.normalize selection) path = .ok l) :
    Site.Worked c e (.slots declared externals) selection := by
  unfold slots at h
  split at h
  · next fields listed => exact level_worked listed (fun _ _ => .slot) h
  · simp [unsupported, reject] at h

theorem noSlots_worked {kind : String} {selection : Value}
    (h : plainSlots c (descend c e) kind [] (Selection.normalize selection) path = .ok l) :
    Site.Worked c e .untyped selection := by
  simp only [plainSlots, slots, List.map_nil, ← Site.resolve_untyped (c := c)] at h
  split at h
  · next fields listed =>
    refine level_worked listed ?_ h
    intro entry part worked
    simp [slotEntry, byName, Table.ofList, Table.ofListBy, unknown, reject] at worked
  · simp [unsupported, reject] at h

theorem plainSlots_worked {kind : String} {declared : List (Slot TypeRef)} {selection : Value}
    (h : plainSlots c (descend c e) kind declared (Selection.normalize selection) path = .ok l) :
    Site.Worked c e (.ofSlots declared) selection := by
  cases declared with
  | nil => exact noSlots_worked h
  | cons slot rest => exact slots_worked h

theorem container_worked {kind : String} {declared : List (Slot TypeRef)} {selection : Value}
    (h : (if declared.isEmpty then untyped (descend c e) selection path
      else plainSlots c (descend c e) kind declared (Selection.normalize selection) path) =
        .ok l) : Site.Worked c e (.ofSlots declared) selection := by
  split at h
  · next none =>
    rw [Site.ofSlots, if_pos none]
    exact untyped_worked h
  · exact plainSlots_worked h

theorem structMembers_worked {name : String} {selection : Value}
    (h : structMembers c (descend c e) name (Selection.normalize selection) path = .ok l) :
    Site.Worked c e (.ofType c (.typedStruct name)) selection := by
  obtain ⟨s, found, h⟩ := Outcome.bind_ok h
  rw [Site.ofType, Catalog.struct_ok (ofCatalog_ok found)]
  exact slots_worked h

theorem unionMembers_worked {declared : List (Member TypeRef)} {selection : Value}
    (h : unionMembers c (descend c e) declared selection path = .ok l) :
    Site.Worked c e (.members declared) selection ∧ Selection.AsksSome selection := by
  obtain ⟨fields, required, h⟩ := Outcome.bind_ok h
  obtain ⟨listed, some⟩ := Selection.requireSome_ok required
  exact ⟨level_worked (s := .members declared) listed (fun _ _ => .member) h, fields, listed, some⟩

theorem record_worked {resource : String} {r : Resource} {selection : Value}
    (entered : enter c e resource path = .ok r)
    (h : record c e (descend c e) r selection path = .ok l) :
    Site.Worked c e (.record resource) selection := by
  unfold record at h
  split at h
  · next fields listed =>
    rw [← Site.resolve_record (enter_ok entered).1] at h
    exact level_worked listed (fun _ _ => .record entered) h
  · simp [unsupported, reject] at h

theorem typed_worked {t : TypeRef} {selection : Value}
    (h : typed c e (descend c e) t selection path = .ok l) :
    (Site.ofType c t).Worked c e selection := by
  rw [← Site.ofType_element]
  cases shape : t.element with simp only [typed, shape] at h
  | resource name =>
    obtain ⟨r, entered, h⟩ := Outcome.bind_ok h
    exact record_worked entered h
  | map declared => exact container_worked h
  | keyword declared => exact container_worked h
  | tuple declared => exact container_worked h
  | struct instanceOf =>
    cases instanceOf with
    | none => exact untyped_worked h
    | some name =>
      rw [Site.ofType]
      simp only at h
      split at h
      · next present =>
        obtain ⟨r, entered, h⟩ := Outcome.bind_ok h
        rw [if_pos present]
        exact record_worked entered h
      · next absent =>
        rw [if_neg absent]
        exact untyped_worked h
  | typedStruct name =>
    obtain ⟨fields, required, h⟩ := Outcome.bind_ok h
    rw [← Selection.requireSome_eq required] at h
    exact structMembers_worked h
  | union declared => exact (unionMembers_worked h).1
  | any => exact untyped_worked h
  | primitive kind oneOf =>
    split at h
    · simp [reject] at h
    · next blank => exact .blank (.inr rfl) (by simpa using blank)
  | array item => exact absurd shape (Site.element_ne_array t item)

theorem typed_asksSome {t : TypeRef} {selection : Value} (checked : t.isChecked = true)
    (h : typed c e (descend c e) t selection path = .ok l) : Selection.AsksSome selection := by
  unfold TypeRef.isChecked at checked
  split at checked
  · next declared shape =>
    simp only [typed, shape] at h
    exact (unionMembers_worked h).2
  · next name shape =>
    simp only [typed, shape] at h
    obtain ⟨fields, required, -⟩ := Outcome.bind_ok h
    obtain ⟨listed, some⟩ := Selection.requireSome_ok required
    exact ⟨fields, listed, some⟩
  · contradiction

theorem descend_worked {position : Position} {selection : Value}
    (h : descend c e position selection path = .ok l) :
    (Site.ofPosition c position).Worked c e selection := by
  rw [descend_eq] at h
  cases position with
  | records name many =>
    obtain ⟨r, entered, h⟩ := Outcome.bind_ok h
    exact record_worked entered h
  | value t => exact typed_worked h
  | untyped => exact untyped_worked h

/-- The value of a type is worked on as the type says, whatever position it is taken for. -/
theorem descend_type_worked {t : TypeRef} {selection : Value}
    (h : descend c e (.ofType t) selection path = .ok l) :
    (Site.ofType c t).Worked c e selection ∧
      (t.isChecked = true → Selection.AsksSome selection) := by
  have worked := descend_worked h
  rw [Site.ofPosition_ofType] at worked
  refine ⟨worked, ?_⟩
  intro checked
  have value : Position.ofType t = .value t := by
    unfold Position.ofType
    split <;> simp_all [TypeRef.isChecked, TypeRef.element]
  rw [value, descend_eq] at h
  exact typed_asksSome checked h

end Descent

/-! ### What an entry hands on -/

/-- The nested selection under the name has been worked on where the name leads, and selects
something where that is checked. -/
def Site.TakesNested (c : Catalog) (e : Exposure) (s : Site) (name : String) (v : Value) : Prop :=
  (∃ t, s.under c name = some t ∧ t.Worked c e (s.given c name v)) ∧
    (s.isChecked c name = true → Selection.AsksSome (s.given c name v))

/-- A mapping alone is worked on as the list of just that mapping. -/
theorem Site.Worked.of_normalize {c : Catalog} {e : Exposure} {s : Site} {selection : Value}
    (h : s.Worked c e (Selection.normalize selection)) : s.Worked c e selection := by
  cases h with
  | blank plain blank =>
    rw [Selection.isBlank_normalize] at blank
    exact .blank plain blank
  | level listed read each =>
    rw [Selection.normalize_normalize] at listed
    exact .level listed read each

namespace Descent
variable {c : Catalog} {e : Exposure} {r : Resource} {resource name : String}
variable {path : List String} {nested : Value} {part : Level}

theorem calledSelection_worked {type : TypeRef} {given selection : Value}
    (chosen : calledSelection (c.requiresSelection type) path name given = .ok selection)
    (worked : (Site.ofType c type).Worked c e selection) :
    (Site.ofType c type).Worked c e given ∧
      (c.requiresSelection type = true → Selection.AsksSome given) := by
  cases needed : c.requiresSelection type with rw [needed] at chosen
  | true =>
    simp only [calledSelection, if_true] at chosen
    split at chosen
    · simp [requiresFields, reject] at chosen
    · obtain ⟨fields, required, same⟩ := Outcome.bind_ok chosen
      cases same
      obtain ⟨listed, some⟩ := Selection.requireSome_ok required
      rw [← listed] at worked
      exact ⟨worked.of_normalize, fun _ => ⟨fields, listed, some⟩⟩
  | false =>
    refine ⟨?_, fun unneeded => absurd unneeded Bool.false_ne_true⟩
    cases chosen
    split at worked
    · next null =>
      refine .blank (Site.ofType_plain needed) ?_
      cases given <;> first | rfl | contradiction
    · exact worked

section
variable (found : c.resource? resource = some r)
include found

theorem field_takesNested {t : Site} {fields : List Value}
    (under : Site.ofField c r name = some t)
    (listed : Selection.normalize ((Site.record resource).given c name nested) = .list fields)
    (some : fields ≠ []) (worked : t.Worked c e (.list fields)) :
    (Site.record resource).TakesNested c e name nested := by
  rw [← listed] at worked
  refine ⟨⟨t, ?_, worked.of_normalize⟩, fun _ => ⟨fields, listed, some⟩⟩
  rw [Site.under, found, Option.bind_some, under]

theorem linkField_takesNested (kind : classify c r name = .relationship)
    (h : linkField (descend c e) r name nested path = .ok part) :
    (Site.record resource).TakesNested c e name nested := by
  have shape := Site.kind_record found name
  rw [kind] at shape
  obtain ⟨fields, required, h⟩ := Outcome.bind_ok h
  obtain ⟨listed, some⟩ := Selection.requireSome_ok required
  split at h
  · simp [crash] at h
  · next link present =>
    obtain ⟨below, worked, -⟩ := Outcome.bind_ok h
    refine field_takesNested found (ofField_link kind present) ?_ some (descend_worked worked)
    rwa [Site.given, shape]

theorem embeddedField_takesNested
    (kind : classify c r name = .embeddedResource ∨ classify c r name = .embeddedResourceArray)
    (h : embeddedField c (descend c e) r name nested path = .ok part) :
    (Site.record resource).TakesNested c e name nested := by
  have shape := Site.kind_record found name
  obtain ⟨fields, required, h⟩ := Outcome.bind_ok h
  obtain ⟨listed, some⟩ := Selection.requireSome_ok required
  split at h
  · simp [crash] at h
  · next a stored =>
    split at h
    · simp [unknown, reject] at h
    · next embedded typed =>
      obtain ⟨below, worked, -⟩ := Outcome.bind_ok h
      have under := ofField_embedded kind stored typed
      refine field_takesNested found under ?_ some (descend_worked worked)
      rcases kind with kind | kind <;> simpa only [Site.given, shape, kind] using listed

theorem calledField_takesNested (kind : classify c r name = .calculationWithArgs)
    (h : calledField c (descend c e) r name nested path = .ok part) :
    (Site.record resource).TakesNested c e name nested := by
  have shape := Site.kind_record found name
  rw [kind] at shape
  simp only [calledField] at h
  split at h
  · simp [unknown, reject] at h
  · next calculation present =>
    split at h
    · simp [Arguments.invalid, reject] at h
    · obtain ⟨args, resolved, h⟩ := Outcome.bind_ok h
      obtain ⟨selection, chosen, h⟩ := Outcome.bind_ok h
      obtain ⟨below, worked, -⟩ := Outcome.bind_ok h
      have under := ofField_called kind present
      have given : (Site.record resource).given c name nested =
          (nested.get? Arguments.fieldsKey).getD .null := by
        rw [Site.given, shape]
      have checked : (Site.record resource).isChecked c name =
          c.requiresSelection calculation.type := by
        simp [Site.isChecked, Site.isWhole, found, kind, present]
      rw [← given] at chosen
      obtain ⟨worked, some⟩ := calledSelection_worked chosen (descend_type_worked worked).1
      refine ⟨⟨_, ?_, worked⟩, ?_⟩
      · rw [Site.under, found, Option.bind_some, under]
      · rwa [checked]

theorem derivedField_takesNested {description : String} {type : Outcome (Option TypeRef)}
    (kind : classify c r name = .calculationComplex ∨ classify c r name = .complexAggregate)
    (under : ∀ t, type = .ok t → Site.ofField c r name = some (Site.ofPosition c (.ofType t)))
    (h : derivedField (descend c e) description type name nested path = .ok part) :
    (Site.record resource).TakesNested c e name nested := by
  have shape := Site.kind_record found name
  obtain ⟨given, stripped, h⟩ := Outcome.bind_ok h
  obtain ⟨t, typed, h⟩ := Outcome.bind_ok h
  obtain ⟨fields, required, h⟩ := Outcome.bind_ok h
  obtain ⟨listed, some⟩ := Selection.requireSome_ok required
  obtain ⟨below, worked, -⟩ := Outcome.bind_ok h
  refine field_takesNested found (under t typed) ?_ some (descend_worked worked)
  rw [withoutForm_ok stripped] at listed
  rcases kind with kind | kind <;> simpa only [Site.given, shape, kind] using listed

theorem unionField_takesNested (kind : classify c r name = .unionAttribute)
    (h : unionField c (descend c e) r name nested path = .ok part) :
    (Site.record resource).TakesNested c e name nested := by
  have shape := Site.kind_record found name
  rw [kind] at shape
  unfold unionField at h
  split at h
  · next declared typed =>
    obtain ⟨below, worked, -⟩ := Outcome.bind_ok h
    obtain ⟨worked, fields, listed, some⟩ := unionMembers_worked worked
    refine ⟨⟨.members declared, ?_, ?_⟩, fun _ => ⟨fields, ?_, some⟩⟩
    · simp [Site.under, found, ofField_attribute typed (.inl kind), Site.ofType]
    · rwa [Site.given, shape]
    · rwa [Site.given, shape]
  · simp [unknown, reject] at h

theorem structField_takesNested (kind : classify c r name = .typedStruct)
    (h : structField c (descend c e) r name nested path = .ok part) :
    (Site.record resource).TakesNested c e name nested := by
  have shape := Site.kind_record found name
  rw [kind] at shape
  simp only [structField] at h
  split at h
  · next struct typed =>
    obtain ⟨fields, required, h⟩ := Outcome.bind_ok h
    obtain ⟨below, worked, -⟩ := Outcome.bind_ok h
    obtain ⟨rfl, some⟩ := Selection.requireSome_ok required
    have under := ofField_attribute typed (.inr (.inl kind))
    refine field_takesNested found under ?_ some (structMembers_worked worked)
    rw [Site.given, shape]
    rfl
  · simp [unknown, reject] at h

theorem tupleField_takesNested (kind : classify c r name = .tuple)
    (h : tupleField c (descend c e) r name nested path = .ok part) :
    (Site.record resource).TakesNested c e name nested := by
  have shape := Site.kind_record found name
  rw [kind] at shape
  simp only [tupleField] at h
  split at h
  · next declared present =>
    obtain ⟨fields, required, h⟩ := Outcome.bind_ok h
    obtain ⟨below, worked, -⟩ := Outcome.bind_ok h
    obtain ⟨rfl, some⟩ := Selection.requireSome_ok required
    have under := ofField_tuple kind present
    refine field_takesNested found under ?_ some (plainSlots_worked worked)
    rw [Site.given, shape]
    rfl
  · simp [unknown, reject] at h

theorem structured_takesNested
    (h : structured c (descend c e) r (classify c r name) name nested path = .ok part) :
    (Site.record resource).TakesNested c e name nested := by
  cases kind : classify c r name with rw [kind] at h
  | relationship => exact linkField_takesNested found kind h
  | embeddedResource => exact embeddedField_takesNested found (.inl kind) h
  | embeddedResourceArray => exact embeddedField_takesNested found (.inr kind) h
  | calculationWithArgs => exact calledField_takesNested found kind h
  | calculationComplex =>
    exact derivedField_takesNested found (.inl kind) (fun _ => ofField_derived kind) h
  | complexAggregate =>
    exact derivedField_takesNested found (.inr kind) (fun _ => ofField_summed kind) h
  | unionAttribute => exact unionField_takesNested found kind h
  | typedStruct => exact structField_takesNested found kind h
  | tuple => exact tupleField_takesNested found kind h
  | _ => simp [structured, reject, crash] at h

end

end Descent

section
variable {c : Catalog} {e : Exposure} {s t : Site}

theorem Site.Works.takesNested {path : List String} {entry : Entry} {v : Value}
    (h : s.Works c e path entry) (asked : entry.request.nested? = some v) :
    s.TakesNested c e entry.name v := by
  cases h with
  | @record resource r _ part entered worked =>
    unfold Descent.recordEntry at worked
    split at worked
    · simp [Descent.unknown, reject] at worked
    · simp [crash] at worked
    · next visible sound =>
      rw [Descent.visibleKind_eq visible sound, asked] at worked
      exact Descent.structured_takesNested (Descent.enter_ok entered).1 worked
  | @slot kind declared externals _ part worked =>
    unfold Descent.slotEntry at worked
    split at worked
    · simp [Descent.unknown, reject] at worked
    · next slot found =>
      have present : Site.slot? declared entry.name = some slot := found
      rw [asked] at worked
      obtain ⟨below, worked, -⟩ := Outcome.bind_ok worked
      obtain ⟨worked, some⟩ := Descent.descend_type_worked worked
      refine ⟨⟨_, ?_, worked⟩, ?_⟩
      · rw [under, present, Option.map_some]
      · rwa [isChecked, present, Option.any_some]
  | @member declared _ part worked =>
    unfold Descent.unionEntry at worked
    split at worked
    · simp [reject] at worked
    · simp [Descent.unknown, reject] at worked
    · next bare found =>
      rw [bare] at asked
      cases asked
    · next w member keyed found =>
      have present : Site.member? declared entry.name = some member := found
      rw [keyed] at asked
      cases asked
      obtain ⟨below, worked, -⟩ := Outcome.bind_ok worked
      obtain ⟨worked, some⟩ := Descent.descend_type_worked worked
      refine ⟨⟨_, ?_, worked⟩, ?_⟩
      · rw [under, present, Option.map_some]
      · rwa [isChecked, present, Option.any_some]
  | untyped worked =>
    unfold Descent.untypedEntry at worked
    rw [asked] at worked
    obtain ⟨below, worked, -⟩ := Outcome.bind_ok worked
    refine ⟨⟨.untyped, rfl, Descent.descend_worked worked⟩, ?_⟩
    intro unchecked
    exact absurd unchecked Bool.false_ne_true

theorem Site.Worked.entry {selection : Value} (h : s.Worked c e selection)
    {spelled : String} {request : Request} {v : Value}
    (member : (.str spelled, request) ∈ Selection.requested selection)
    (asked : request.nested? = some v) :
    ∃ path entry, s.Works c e path entry ∧ entry.request.nested? = some v ∧
      entry.name = s.resolve c spelled := by
  cases h with
  | blank plain blank =>
    rw [Selection.requested_blank blank] at member
    exact absurd member List.not_mem_nil
  | @level fields path entries listed read each =>
    obtain ⟨same, named, -⟩ := Selection.read_ok read
    rw [Selection.requested_of_normalize listed, same] at member
    obtain ⟨entry, present, equal⟩ := List.mem_map.1 member
    cases equal
    exact ⟨path, entry, each entry present, asked, (named entry present).1⟩

theorem Site.Worked.takesNested {selection : Value} (h : s.Worked c e selection)
    {spelled : String} {request : Request} {v : Value}
    (member : (.str spelled, request) ∈ Selection.requested selection)
    (asked : request.nested? = some v) : s.TakesNested c e (s.resolve c spelled) v := by
  obtain ⟨path, entry, works, nested, named⟩ := h.entry member asked
  rw [← named]
  exact works.takesNested nested

theorem Site.Worked.asked {selection : Value} {way : List String}
    {final : List (Value × Request)} (h : s.Worked c e selection)
    (way : Asked c s (Selection.requested selection) way t final) :
    ∃ v, t.Worked c e v ∧ Selection.requested v = final := by
  generalize start : Selection.requested selection = requests at way
  induction way generalizing selection with
  | here s requests => exact ⟨selection, h, start⟩
  | down member asked under onward ih =>
    subst start
    obtain ⟨⟨t, leads, worked⟩, -⟩ := h.takesNested member asked
    rw [under] at leads
    cases leads
    exact ih worked rfl

theorem plan_worked {root action : String} {selection : Value} {l : Level}
    (h : plan c root action selection e = .ok l) :
    ∃ s, Site.ofResult c root action = some s ∧ s.Worked c (e.withRoot root) selection := by
  obtain ⟨position, result, worked⟩ := plan_ok h
  exact ⟨_, result, (Descent.descend_worked worked).of_normalize⟩

end
end FieldPlan
