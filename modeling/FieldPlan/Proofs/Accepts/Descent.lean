import FieldPlan.Proofs.Accepts.Fields

/-! Every accepted selection is accepted entry by entry. A layer hands on only lighter
selections, so that this holds of all layers by induction on the weight. -/
namespace FieldPlan
namespace Descent
variable {c : Catalog} {e : Exposure} {f : Descend}
variable {r : Resource} {path : List String} {part : Level}

theorem recordEntry_part {resource : String} (found : c.resource? resource = some r)
    {entry : Entry}
    (sound : ∀ v, entry.request.nested? = some v → SoundBelow c e (v.weight + 1) f)
    (h : recordEntry c e f r path entry = .ok part) :
    Part c e (.record resource) entry.name entry.request part := by
  unfold recordEntry at h
  split at h
  · simp [unknown, reject] at h
  · simp [crash] at h
  · next kind visible sound' =>
    rw [visibleKind_eq visible sound'] at h
    split at h
    · next bare =>
      rw [Request.eq_bare bare]
      exact leaf_part found h
    · next v asked => exact structured_part found (sound v asked) asked h

theorem record_accepts {resource : String} {selection : Value} {l : Level}
    (entered : enter c e resource path = .ok r) (sound : SoundBelow c e selection.weight f)
    (h : record c e f r selection path = .ok l) :
    Accepts c e (.record resource) (Selection.requested selection) l := by
  have weight := Selection.weight_normalize selection
  obtain ⟨found, allowed⟩ := enter_ok entered
  unfold record at h
  split at h
  · next fields same =>
    rw [same, Value.weight] at weight
    rw [Selection.requested_of_normalize same]
    rw [← Site.resolve_record found] at h
    have present : c.hasResource resource = true := by
      rw [Catalog.hasResource, found, Option.isSome_some]
    refine accepts_read (s := .record resource) ⟨present, allowed⟩ (sound.mono (by omega)) ?_ h
    intro entry part below worked
    exact recordEntry_part found below worked
  · simp [unsupported, reject] at h

/-- A value is worked on as its site says, whatever arrays are around it. -/
theorem typed_accepts {t : TypeRef} {selection : Value} {l : Level}
    (sound : SoundBelow c e selection.weight f) (h : typed c e f t selection path = .ok l) :
    Accepts c e (.ofType c t) (Selection.requested selection) l := by
  have weight := Selection.weight_normalize selection
  rw [← Site.ofType_element]
  cases shape : t.element with simp only [typed, shape] at h
  | resource name =>
    obtain ⟨r, entered, h⟩ := Outcome.bind_ok h
    exact record_accepts entered sound h
  | map declared => exact container_accepts sound h
  | keyword declared => exact container_accepts sound h
  | tuple declared => exact container_accepts sound h
  | struct instanceOf =>
    cases instanceOf with
    | none => exact untyped_accepts sound h
    | some name =>
      rw [Site.ofType]
      simp only at h
      split at h
      · next present =>
        obtain ⟨r, entered, h⟩ := Outcome.bind_ok h
        rw [if_pos present]
        exact record_accepts entered sound h
      · next absent =>
        rw [if_neg absent]
        exact untyped_accepts sound h
  | typedStruct name =>
    obtain ⟨fields, listed, h⟩ := Outcome.bind_ok h
    have same := Selection.requireSome_eq listed
    rw [same, Value.weight] at weight
    rw [Selection.requested_of_normalize same]
    exact structMembers_accepts (weight ▸ sound) h
  | union declared => exact unionMembers_accepts sound h
  | any => exact untyped_accepts sound h
  | primitive kind oneOf =>
    split at h
    · simp [reject] at h
    · next blank =>
      cases h
      rw [Selection.requested_blank (by simpa using blank)]
      exact .nil trivial
  | array item => exact absurd shape (Site.element_ne_array t item)

theorem layer_accepts {position : Position} {selection : Value} {l : Level}
    (sound : SoundBelow c e selection.weight f)
    (h : layer c e f position selection path = .ok l) :
    Accepts c e (.ofPosition c position) (Selection.requested selection) l := by
  cases position with
  | records name many =>
    obtain ⟨r, entered, h⟩ := Outcome.bind_ok h
    exact record_accepts entered sound h
  | value t => exact typed_accepts sound h
  | untyped => exact untyped_accepts sound h

end Descent

/-- Whatever is accepted, at any depth, is accepted entry by entry. -/
theorem descend_accepts {c : Catalog} {e : Exposure} {position : Position} {selection : Value}
    {path : List String} {l : Level} (h : descend c e position selection path = .ok l) :
    Accepts c e (.ofPosition c position) (Selection.requested selection) l := by
  induction weight : selection.weight using Nat.strongRecOn
    generalizing position selection path l with
  | ind n ih =>
    subst weight
    rw [descend_eq] at h
    refine Descent.layer_accepts ?_ h
    intro position v path l lighter worked
    exact ih v.weight lighter worked rfl

theorem plan_ok {c : Catalog} {root action : String} {selection : Value} {e : Exposure}
    {l : Level} (h : plan c root action selection e = .ok l) :
    ∃ position, Site.ofResult c root action = some (.ofPosition c position) ∧
      descend c (e.withRoot root) position (Selection.normalize selection) [] = .ok l := by
  obtain ⟨r, found, h⟩ := Outcome.bind_ok h
  have present := Catalog.resource_ok (ofCatalog_ok found)
  have named := Catalog.resource?_name present
  split at h
  · simp [reject] at h
  · next a chosen =>
    rw [named] at h
    refine ⟨.ofAction root a, ?_, h⟩
    simp [Site.ofResult, present, chosen, named]

theorem plan_accepts {c : Catalog} {root action : String} {selection : Value} {e : Exposure}
    {l : Level} (h : plan c root action selection e = .ok l) :
    ∃ s, Site.ofResult c root action = some s ∧
      Accepts c (e.withRoot root) s (Selection.requested selection) l := by
  obtain ⟨position, result, worked⟩ := plan_ok h
  have accepted := descend_accepts worked
  rw [Selection.requested_normalize] at accepted
  exact ⟨_, result, accepted⟩

end FieldPlan
