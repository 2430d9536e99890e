import FieldPlan.Proofs.Accepts

/-! What is accepted on values that are no records: untyped ones, named slots, typed
structs and unions. -/
namespace FieldPlan.Descent
variable {c : Catalog} {e : Exposure} {f : Descend}

theorem untypedEntry_part {path : List String} {entry : Entry} {part : Level}
    (sound : ∀ v, entry.request.nested? = some v → SoundBelow c e (v.weight + 1) f)
    (h : untypedEntry f path entry = .ok part) :
    Part c e .untyped entry.name entry.request part := by
  unfold untypedEntry at h
  split at h
  · next bare =>
    cases h
    rw [Request.eq_bare bare]
    exact .bare rfl
  · next v asked =>
    obtain ⟨below, worked, h⟩ := Outcome.bind_ok h
    cases h
    exact .nested [] asked rfl (sound v asked _ _ _ _ (Nat.lt_succ_self _) worked)

theorem untyped_accepts {selection : Value} {path : List String} {l : Level}
    (sound : SoundBelow c e selection.weight f) (h : untyped f selection path = .ok l) :
    Accepts c e .untyped (Selection.requested selection) l := by
  have weight := Selection.weight_normalize selection
  simp only [untyped] at h
  split at h
  · next blank =>
    cases h
    rw [Selection.isBlank_normalize] at blank
    rw [Selection.requested_blank blank]
    exact .nil trivial
  · split at h
    · next fields same =>
      rw [same, Value.weight] at weight
      rw [Selection.requested_of_normalize same]
      refine accepts_read (s := .untyped) trivial (sound.mono (by omega)) ?_ h
      intro entry part below worked
      exact untypedEntry_part below worked
    · simp [unsupported, reject] at h

theorem slotEntry_part {kind : String} {declared : List (Slot TypeRef)}
    {externals : List (String × String)} {path : List String} {entry : Entry} {part : Level}
    (sound : ∀ v, entry.request.nested? = some v → SoundBelow c e (v.weight + 1) f)
    (h : slotEntry c f kind declared path entry = .ok part) :
    Part c e (.slots declared externals) entry.name entry.request part := by
  unfold slotEntry at h
  split at h
  · simp [unknown, reject] at h
  · next slot found =>
    have present : Site.slot? declared entry.name = some slot := found
    have name : slot.name = entry.name := (find?_byName.1 found).2
    rw [name] at h
    split at h
    · next bare =>
      split at h
      · simp [requiresFields, reject] at h
      · next plain =>
        cases h
        rw [Request.eq_bare bare]
        exact .bare (by simpa [Site.takesBare, present] using plain)
    · next v asked =>
      obtain ⟨below, worked, h⟩ := Outcome.bind_ok h
      cases h
      have inner := sound v asked _ _ _ _ (Nat.lt_succ_self _) worked
      rw [Site.ofPosition_ofType] at inner
      exact .nested [] asked (by simp [Site.under, present]) inner

theorem slots_accepts {kind : String} {declared : List (Slot TypeRef)}
    {externals : List (String × String)} {fields : List Value} {path : List String} {l : Level}
    (sound : SoundBelow c e (Value.weights fields) f)
    (h : slots c f kind (Selection.slotName (declared.map Slot.name) externals) declared
      (.list fields) path = .ok l) :
    Accepts c e (.slots declared externals) (Selection.walk fields) l := by
  refine accepts_read (s := .slots declared externals) trivial sound ?_ h
  intro entry part below worked
  exact slotEntry_part below worked

theorem noSlots_accepts {kind : String} {resolve : String → String} {fields : List Value}
    {path : List String} {l : Level} (s : Site) (entered : s.Entered c e)
    (h : slots c f kind resolve [] (.list fields) path = .ok l) :
    Accepts c e s (Selection.walk fields) l := by
  obtain ⟨entries, read, h⟩ := Outcome.bind_ok h
  rw [(Selection.read_ok read).1]
  cases entries with
  | nil =>
    cases h
    exact .nil entered
  | cons entry rest => simp [collect, slotEntry, byName, Table.ofList, Table.ofListBy, unknown,
      reject, bind, Except.bind] at h

theorem plainSlots_accepts {kind : String} {declared : List (Slot TypeRef)}
    {fields : List Value} {path : List String} {l : Level}
    (sound : SoundBelow c e (Value.weights fields) f)
    (h : plainSlots c f kind declared (.list fields) path = .ok l) :
    Accepts c e (.ofSlots declared) (Selection.walk fields) l := by
  cases declared with
  | nil => exact noSlots_accepts .untyped trivial h
  | cons slot rest => exact slots_accepts sound h

theorem container_accepts {kind : String} {declared : List (Slot TypeRef)} {selection : Value}
    {path : List String} {l : Level} (sound : SoundBelow c e selection.weight f)
    (h : (if declared.isEmpty then untyped f selection path
      else plainSlots c f kind declared (Selection.normalize selection) path) = .ok l) :
    Accepts c e (.ofSlots declared) (Selection.requested selection) l := by
  have weight := Selection.weight_normalize selection
  split at h
  · next none =>
    rw [Site.ofSlots, if_pos none]
    exact untyped_accepts sound h
  · cases same : Selection.normalize selection with rw [same] at h weight
    | list fields =>
      rw [Value.weight] at weight
      rw [Selection.requested_of_normalize same]
      exact plainSlots_accepts (weight ▸ sound) h
    | _ => simp [plainSlots, slots, unsupported, reject] at h

theorem structMembers_accepts {name : String} {fields : List Value} {path : List String}
    {l : Level} (sound : SoundBelow c e (Value.weights fields) f)
    (h : structMembers c f name (.list fields) path = .ok l) :
    Accepts c e (.ofType c (.typedStruct name)) (Selection.walk fields) l := by
  obtain ⟨s, found, h⟩ := Outcome.bind_ok h
  have present := Catalog.struct_ok (ofCatalog_ok found)
  rw [Site.ofType, present]
  exact slots_accepts sound h

theorem unionEntry_part {declared : List (Member TypeRef)} {path : List String} {entry : Entry}
    {part : Level} (sound : ∀ v, entry.request.nested? = some v → SoundBelow c e (v.weight + 1) f)
    (h : unionEntry c f declared path entry = .ok part) :
    Part c e (.members declared) entry.name entry.request part := by
  unfold unionEntry at h
  split at h
  · simp [reject] at h
  · simp [unknown, reject] at h
  · next member bare found =>
    have present : Site.member? declared entry.name = some member := found
    have name : member.name = entry.name := (find?_byName.1 found).2
    split at h
    · simp [requiresFields, reject] at h
    · next plain =>
      cases h
      rw [bare, name]
      exact .bare (by simpa [Site.takesBare, present] using plain)
  · next v member keyed found =>
    have present : Site.member? declared entry.name = some member := found
    have name : member.name = entry.name := (find?_byName.1 found).2
    rw [name] at h
    obtain ⟨below, worked, h⟩ := Outcome.bind_ok h
    have asked : entry.request.nested? = some v := by rw [keyed]; rfl
    have inner := sound v asked _ _ _ _ (Nat.lt_succ_self _) worked
    rw [Site.ofPosition_ofType] at inner
    cases h
    rw [← Site.nestedLevel_members present []]
    exact .nested [] asked (by simp [Site.under, present]) inner

theorem unionMembers_accepts {declared : List (Member TypeRef)} {selection : Value}
    {path : List String} {l : Level} (sound : SoundBelow c e selection.weight f)
    (h : unionMembers c f declared selection path = .ok l) :
    Accepts c e (.members declared) (Selection.requested selection) l := by
  obtain ⟨fields, found, h⟩ := Outcome.bind_ok h
  have same := Selection.requireSome_eq found
  have weight := Selection.weight_normalize selection
  rw [same, Value.weight] at weight
  rw [Selection.requested_of_normalize same]
  refine accepts_read (s := .members declared) trivial (sound.mono (by omega)) ?_ h
  intro entry part below worked
  exact unionEntry_part below worked

end FieldPlan.Descent
