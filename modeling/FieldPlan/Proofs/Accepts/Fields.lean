import FieldPlan.Proofs.Accepts.Values

/-! What is accepted of the fields of a record: each kind of field adds its own part to
the plan of the level. -/
namespace FieldPlan.Descent
variable {c : Catalog} {e : Exposure} {f : Descend}
variable {r : Resource} {name : String} {path : List String} {part : Level} {nested : Value}

theorem visibleKind_eq (h : visibleKind c e r name ≠ .notFound)
    (sound : ∀ way, visibleKind c e r name ≠ .crashed way) :
    visibleKind c e r name = classify c r name := by
  unfold visibleKind at h sound ⊢
  split
  · next link =>
    rw [link] at h sound ⊢
    split
    · next present =>
      simp only [present] at h
      split
      · rfl
      · next hidden => exact absurd (if_neg hidden) h
    · next absent => exact absurd (by rw [absent]) (sound .absent)
  · rfl

theorem ofField_link {link : Relationship} (kind : classify c r name = .relationship)
    (present : r.relationship? name = some link) :
    Site.ofField c r name = some (.record link.destination) := by
  rw [Site.ofField, kind]
  simp only [present, Option.map_some]

theorem ofField_called {calculation : Calculation}
    (kind : classify c r name = .calculationWithArgs)
    (present : r.calculation? name = some calculation) :
    Site.ofField c r name = some (.ofType c calculation.type) := by
  rw [Site.ofField, kind]
  simp only [present, Option.map_some, Site.ofPosition_ofType]

theorem ofField_embedded {embedded : String}
    (kind : classify c r name = .embeddedResource ∨ classify c r name = .embeddedResourceArray)
    {a : Attribute} (stored : r.attribute? name = some a)
    (typed : c.embeddedName a.type = some embedded) :
    Site.ofField c r name = some (.record embedded) := by
  rw [← Site.ofType_embedded typed]
  rcases kind with kind | kind <;> simp [Site.ofField, kind, stored]

theorem ofField_derived {type : Option TypeRef} (kind : classify c r name = .calculationComplex)
    (typed : (.ok ((r.calculation? name).map Calculation.type) : Outcome (Option TypeRef)) =
      .ok type) :
    Site.ofField c r name = some (.ofPosition c (.ofType type)) := by
  cases typed
  simp [Site.ofField, kind]

theorem ofField_summed {type : Option TypeRef} (kind : classify c r name = .complexAggregate)
    (typed : summaryType c r name = .ok type) :
    Site.ofField c r name = some (.ofPosition c (.ofType type)) := by
  obtain rfl := summaryType_ok typed
  simp [Site.ofField, kind]

theorem ofField_attribute {t : TypeRef} (typed : attributeType? r name = some t)
    (kind : classify c r name = .unionAttribute ∨ classify c r name = .typedStruct ∨
      classify c r name = .tuple) :
    Site.ofField c r name = some (.ofType c t) := by
  obtain ⟨a, stored, rfl⟩ := Option.map_eq_some_iff.1 typed
  rw [Site.ofType_inner]
  rcases kind with kind | kind | kind <;> simp [Site.ofField, kind, stored]

theorem ofField_tuple {declared : List (Slot TypeRef)} (kind : classify c r name = .tuple)
    (present : (attributeType? r name).bind tupleSlots? = some declared) :
    Site.ofField c r name = some (.ofSlots declared) := by
  obtain ⟨t, typed, tuple⟩ := Option.bind_eq_some_iff.1 present
  rw [ofField_attribute typed (.inr (.inr kind))]
  cases t <;> simp [tupleSlots?] at tuple <;> rw [tuple, Site.ofType]

theorem requested_calledSelection {needed : Bool} {given selection : Value}
    (h : calledSelection needed path name given = .ok selection) :
    Selection.requested selection = Selection.requested given := by
  simp only [calledSelection] at h
  split at h
  · split at h
    · simp [requiresFields, reject] at h
    · obtain ⟨fields, listed, h⟩ := Outcome.bind_ok h
      cases h
      rw [Selection.requested_of_normalize (Selection.requireSome_eq listed)]
      rfl
  · cases h
    split
    · next null =>
      cases given <;> simp [Value.isNull] at null
      rfl
    · rfl

theorem withoutForm_ok {given : Value} (h : withoutForm path name nested = .ok given) :
    given = (nested.get? Arguments.fieldsKey).getD nested := by
  unfold withoutForm at h
  split at h
  · next absent =>
    cases h
    rw [absent]
    rfl
  · next fields present =>
    split at h
    · simp [Arguments.invalid, reject] at h
    · cases h
      rw [present]
      rfl

section
variable {resource : String} (found : c.resource? resource = some r)
include found

theorem leaf_part (h : leaf (classify c r name) name path = .ok part) :
    Part c e (.record resource) name .bare part := by
  have shape := Site.kind_record found name
  suffices level : (Site.record resource).takesBare c name = true ∧
      (Site.record resource).bareLevel c name = part by
    rw [← level.2]
    exact .bare level.1
  cases kind : classify c r name <;> rw [kind] at h shape <;>
    simp_all [leaf, requiresFields, reject, unknown, crash, Site.takesBare, Site.bareLevel, Site.selected,
      Site.bareLoad]

variable (sound : SoundBelow c e (nested.weight + 1) f)
include sound

theorem linkField_part {request : Request} (asked : request.nested? = some nested)
    (kind : classify c r name = .relationship) (h : linkField f r name nested path = .ok part) :
    Part c e (.record resource) name request part := by
  have shape := Site.kind_record found name
  rw [kind] at shape
  have weight := Selection.weight_normalize nested
  obtain ⟨fields, listed, h⟩ := Outcome.bind_ok h
  have same := Selection.requireSome_eq listed
  rw [same] at weight
  split at h
  · simp [crash] at h
  · next link present =>
    obtain ⟨below, worked, h⟩ := Outcome.bind_ok h
    cases h
    have inner := sound _ _ _ _ (by omega) worked
    rw [← Site.nestedLevel_link found below kind]
    refine .nested [] asked (t := .record link.destination) ?_ ?_
    · rw [Site.under, found, Option.bind_some, ofField_link kind present]
    · rw [Site.given, shape]
      rwa [Selection.requested_of_normalize same]

theorem embeddedField_part {request : Request} (asked : request.nested? = some nested)
    (kind : classify c r name = .embeddedResource ∨ classify c r name = .embeddedResourceArray)
    (h : embeddedField c f r name nested path = .ok part) :
    Part c e (.record resource) name request part := by
  have shape := Site.kind_record found name
  have weight := Selection.weight_normalize nested
  obtain ⟨fields, listed, h⟩ := Outcome.bind_ok h
  have same := Selection.requireSome_eq listed
  rw [same] at weight
  split at h
  · simp [crash] at h
  · next a stored =>
    split at h
    · simp [unknown, reject] at h
    · next embedded typed =>
      obtain ⟨below, worked, h⟩ := Outcome.bind_ok h
      cases h
      have inner := sound _ _ _ _ (by omega) worked
      rw [Selection.requested_of_normalize (v := .list fields) rfl,
        ← Selection.requested_of_normalize same, Site.ofPosition] at inner
      have held : classify c r name = .embeddedResource ∨
          classify c r name = .embeddedResourceArray ∨ classify c r name = .unionAttribute := by
        rw [← or_assoc]
        exact Or.inl kind
      have under := ofField_embedded kind stored typed
      rw [← Site.nestedLevel_held found below held]
      refine .nested [] asked (t := .record embedded) (by simp [Site.under, found, under]) ?_
      rcases kind with kind | kind <;> simpa only [Site.given, shape, kind] using inner

theorem calledField_part {request : Request} (asked : request.nested? = some nested)
    (kind : classify c r name = .calculationWithArgs)
    (h : calledField c f r name nested path = .ok part) :
    Part c e (.record resource) name request part := by
  have shape := Site.kind_record found name
  rw [kind] at shape
  simp only [calledField] at h
  split at h
  · simp [unknown, reject] at h
  · next calculation present =>
    split at h
    · simp [Arguments.invalid, reject] at h
    · next form =>
      obtain ⟨args, resolved, h⟩ := Outcome.bind_ok h
      obtain ⟨selection, chosen, h⟩ := Outcome.bind_ok h
      obtain ⟨below, worked, h⟩ := Outcome.bind_ok h
      cases h
      have lighter := weight_calledSelection_le chosen
      have fieldsLighter := @weight_formFields_le nested (by simpa using form)
      have inner := sound _ _ _ _ (by omega) worked
      rw [requested_calledSelection chosen, Site.ofPosition_ofType] at inner
      rw [← Site.nestedLevel_called found below args kind present]
      refine .nested args asked (t := .ofType c calculation.type) ?_ ?_
      · rw [Site.under, found, Option.bind_some, ofField_called kind present]
      · rwa [Site.given, shape]

theorem derivedField_part {request : Request} {description : String}
    {type : Outcome (Option TypeRef)}
    (asked : request.nested? = some nested)
    (kind : classify c r name = .calculationComplex ∨ classify c r name = .complexAggregate)
    (under : ∀ t, type = .ok t → Site.ofField c r name = some (Site.ofPosition c (.ofType t)))
    (h : derivedField f description type name nested path = .ok part) :
    Part c e (.record resource) name request part := by
  have shape := Site.kind_record found name
  obtain ⟨given, stripped, h⟩ := Outcome.bind_ok h
  obtain ⟨t, typed, h⟩ := Outcome.bind_ok h
  obtain ⟨fields, listed, h⟩ := Outcome.bind_ok h
  obtain ⟨below, worked, h⟩ := Outcome.bind_ok h
  cases h
  have normal := Selection.requireSome_eq listed
  have weight := Selection.weight_normalize given
  rw [normal] at weight
  have lighter := weight_withoutForm_le stripped
  have inner := sound _ _ _ _ (by omega) worked
  rw [Selection.requested_of_normalize (v := .list fields) rfl,
    ← Selection.requested_of_normalize normal, withoutForm_ok stripped] at inner
  rw [← Site.nestedLevel_derived found below kind]
  refine .nested [] asked (t := .ofPosition c (.ofType t)) (by simp [Site.under, found, under t typed]) ?_
  rcases kind with kind | kind <;> simpa only [Site.given, shape, kind] using inner

theorem unionField_part {request : Request} (asked : request.nested? = some nested)
    (kind : classify c r name = .unionAttribute)
    (h : unionField c f r name nested path = .ok part) :
    Part c e (.record resource) name request part := by
  have shape := Site.kind_record found name
  rw [kind] at shape
  unfold unionField at h
  split at h
  · next declared typed =>
    obtain ⟨below, worked, h⟩ := Outcome.bind_ok h
    cases h
    have inner := unionMembers_accepts (sound.mono (Nat.le_succ _)) worked
    rw [← Site.nestedLevel_held found below (Or.inr (Or.inr kind))]
    refine .nested [] asked (t := .members declared) ?_ ?_
    · simp [Site.under, found, ofField_attribute typed (.inl kind), Site.ofType]
    · rwa [Site.given, shape]
  · simp [unknown, reject] at h

theorem structField_part {request : Request} (asked : request.nested? = some nested)
    (kind : classify c r name = .typedStruct)
    (h : structField c f r name nested path = .ok part) :
    Part c e (.record resource) name request part := by
  have shape := Site.kind_record found name
  rw [kind] at shape
  simp only [structField] at h
  split at h
  · next struct typed =>
    obtain ⟨fields, listed, h⟩ := Outcome.bind_ok h
    obtain ⟨below, worked, h⟩ := Outcome.bind_ok h
    cases h
    have same := Selection.requireSome_eq listed
    subst same
    have inner := structMembers_accepts (sound.mono (Nat.le_succ _)) worked
    rw [← Site.nestedLevel_shaped found below (Or.inl kind)]
    refine .nested [] asked (t := .ofType c (.typedStruct struct)) ?_ ?_
    · simp [Site.under, found, ofField_attribute typed (.inr (.inl kind))]
    · rwa [Site.given, shape]
  · simp [unknown, reject] at h

theorem tupleField_part {request : Request} (asked : request.nested? = some nested)
    (kind : classify c r name = .tuple) (h : tupleField c f r name nested path = .ok part) :
    Part c e (.record resource) name request part := by
  have shape := Site.kind_record found name
  rw [kind] at shape
  simp only [tupleField] at h
  split at h
  · next declared present =>
    obtain ⟨fields, listed, h⟩ := Outcome.bind_ok h
    obtain ⟨below, worked, h⟩ := Outcome.bind_ok h
    cases h
    have same := Selection.requireSome_eq listed
    subst same
    have inner := plainSlots_accepts (sound.mono (Nat.le_succ _)) worked
    rw [← Site.nestedLevel_shaped found below (Or.inr kind)]
    refine .nested [] asked (t := .ofSlots declared) ?_ ?_
    · rw [Site.under, found, Option.bind_some, ofField_tuple kind present]
    · rwa [Site.given, shape]
  · simp [unknown, reject] at h

theorem structured_part {request : Request} (asked : request.nested? = some nested)
    (h : structured c f r (classify c r name) name nested path = .ok part) :
    Part c e (.record resource) name request part := by
  cases kind : classify c r name with rw [kind] at h
  | relationship => exact linkField_part found sound asked kind h
  | embeddedResource => exact embeddedField_part found sound asked (.inl kind) h
  | embeddedResourceArray => exact embeddedField_part found sound asked (.inr kind) h
  | calculationWithArgs => exact calledField_part found sound asked kind h
  | calculationComplex =>
    exact derivedField_part found sound asked (.inl kind) (fun _ => ofField_derived kind) h
  | complexAggregate =>
    exact derivedField_part found sound asked (.inr kind) (fun _ => ofField_summed kind) h
  | unionAttribute => exact unionField_part found sound asked kind h
  | typedStruct => exact structField_part found sound asked kind h
  | tuple => exact tupleField_part found sound asked kind h
  | _ => simp [structured, reject, crash] at h

end

end FieldPlan.Descent
