import FieldPlan.Proofs.Respelled

/-! Selections on values that are no records, spelled differently: untyped ones, named slots,
typed structs and unions work on the declared names. -/
namespace FieldPlan
namespace Descent
variable {c : Catalog} {e : Exposure} {f : Descend}

/-- What is accepted of lighter selections is accepted in other words, with the same plan. -/
def KeepsBelow (c : Catalog) (n : Nat) (f : Descend) : Prop :=
  ∀ position v w path l, v.weight < n → Respelled c (.ofPosition c position) v w →
    f position v path = .ok l → f position w path = .ok l

theorem KeepsBelow.mono {m n : Nat} (keeps : KeepsBelow c n f) (le : m ≤ n) : KeepsBelow c m f :=
  fun _ _ _ _ _ lighter => keeps _ _ _ _ _ (Nat.lt_of_lt_of_le lighter le)

/-! ### Levels -/

section
variable {s : Site} {path : List String} {l : Level}

theorem collect_respelled {part : Entry → Outcome Level} {entries entries' : List Entry}
    (each : List.Forall₂ (Entry.Respelled c s) entries entries')
    (keeps : ∀ a ∈ entries, ∀ b one, Entry.Respelled c s a b → part a = .ok one → part b = .ok one)
    (h : collect part entries = .ok l) : collect part entries' = .ok l := by
  induction each generalizing l with
  | nil => exact h
  | cons alike _ ih =>
    obtain ⟨here, later⟩ := List.forall_mem_cons.1 keeps
    obtain ⟨one, first, h⟩ := Outcome.bind_ok h
    obtain ⟨more, others, h⟩ := Outcome.bind_ok h
    rw [collect, here _ one alike first, ih later others]
    exact h

theorem read_collect_respelled {part : Entry → Outcome Level} {fields : List Value} {w : Value}
    (below : KeepsBelow c (Value.weights fields) f) (alike : Respelled c s (.list fields) w)
    (keeps : ∀ a b one, (∀ v, a.request.nested? = some v → KeepsBelow c (v.weight + 1) f) →
      Entry.Respelled c s a b → part a = .ok one → part b = .ok one)
    (h : (Selection.read (s.resolve c) path fields >>= collect part) = .ok l) :
    ∃ fields', w = .list fields' ∧
      (Selection.read (s.resolve c) path fields' >>= collect part) = .ok l := by
  obtain ⟨entries, read, h⟩ := Outcome.bind_ok h
  obtain ⟨fields', entries', rfl, read', each⟩ := Selection.read_respelled alike read
  refine ⟨fields', rfl, ?_⟩
  rw [read']
  refine collect_respelled each ?_ h
  intro a member b one same worked
  refine keeps a b one ?_ same worked
  intro v nested
  exact below.mono (Selection.weight_read_lt read member nested)

theorem requireSome_respelled {kind : String} {field : Option String} {v w : Value}
    {fields : List Value} (alike : Respelled c s v w)
    (h : Selection.requireSome kind path field v = .ok fields) :
    ∃ fields', Selection.requireSome kind path field w = .ok fields' ∧
      Respelled c s (.list fields) (.list fields') := by
  have same := Selection.requireSome_eq h
  subst same
  cases alike with
  | same => exact ⟨fields, h, .same s _⟩
  | level elements =>
    rename_i fields'
    refine ⟨fields', ?_, .level elements⟩
    cases fields' with
    | nil =>
      cases elements
      cases h
    | cons element rest => rfl

end

/-! ### Values -/

section
variable {path : List String}

theorem untypedEntry_respelled {a b : Entry} {part : Level}
    (below : ∀ v, a.request.nested? = some v → KeepsBelow c (v.weight + 1) f)
    (alike : Entry.Respelled c .untyped a b) (h : untypedEntry f path a = .ok part) :
    untypedEntry f path b = .ok part := by
  unfold untypedEntry at h ⊢
  rw [alike.name]
  split at h
  · next bare =>
    rw [alike.request.none bare]
    exact h
  · next v asked =>
    obtain ⟨w, asked', same⟩ := alike.request.some asked
    obtain ⟨nested, worked, h⟩ := Outcome.bind_ok h
    have kept := below v asked .untyped v w _ _ (Nat.lt_succ_self _) (same.below _ rfl) worked
    rw [asked']
    simp only
    rw [kept]
    exact h

theorem untyped_respelled {v w : Value} {l : Level} (below : KeepsBelow c v.weight f)
    (alike : Respelled c .untyped v w) (h : untyped f v path = .ok l) :
    untyped f w path = .ok l := by
  have weight := Selection.weight_normalize v
  simp only [untyped] at h ⊢
  rw [alike.normalize.isBlank]
  split at h
  · next blank => rw [if_pos blank, h]
  · next full =>
    rw [if_neg full]
    split at h
    · next fields same =>
      have listed := alike.normalize
      rw [same, Value.weight] at weight
      rw [same] at listed
      obtain ⟨fields', same', kept⟩ := read_collect_respelled (below.mono (by omega)) listed
        (fun a b one => untypedEntry_respelled) h
      rw [same']
      exact kept
    · simp [unsupported, reject] at h

theorem slotEntry_respelled {kind : String} {declared : List (Slot TypeRef)}
    {externals : List (String × String)} {a b : Entry} {part : Level}
    (below : ∀ v, a.request.nested? = some v → KeepsBelow c (v.weight + 1) f)
    (alike : Entry.Respelled c (.slots declared externals) a b)
    (h : slotEntry c f kind declared path a = .ok part) :
    slotEntry c f kind declared path b = .ok part := by
  unfold slotEntry at h ⊢
  rw [alike.name]
  split at h
  · simp [unknown, reject] at h
  · next slot found =>
    have present : Site.slot? declared a.name = some slot := found
    split at h
    · next bare =>
      rw [alike.request.none bare]
      exact h
    · next v asked =>
      obtain ⟨w, asked', same⟩ := alike.request.some asked
      obtain ⟨nested, worked, h⟩ := Outcome.bind_ok h
      have inner := same.below (.ofType c slot.type) (by simp [Site.under, present])
      rw [← Site.ofPosition_ofType] at inner
      rw [asked']
      simp only
      rw [below v asked _ v w _ _ (Nat.lt_succ_self _) inner worked]
      exact h

theorem slots_respelled {kind : String} {declared : List (Slot TypeRef)}
    {externals : List (String × String)} {v w : Value} {l : Level}
    (below : KeepsBelow c v.weight f) (alike : Respelled c (.slots declared externals) v w)
    (h : slots c f kind (Selection.slotName (declared.map Slot.name) externals) declared v path =
      .ok l) :
    slots c f kind (Selection.slotName (declared.map Slot.name) externals) declared w path =
      .ok l := by
  unfold slots at h
  split at h
  · next fields =>
    obtain ⟨fields', rfl, kept⟩ := read_collect_respelled (by rwa [Value.weight] at below) alike
      (fun a b one => slotEntry_respelled) h
    exact kept
  · simp [unsupported, reject] at h

theorem plainSlots_respelled {kind : String} {declared : List (Slot TypeRef)} {v w : Value}
    {l : Level} (below : KeepsBelow c v.weight f) (alike : Respelled c (.ofSlots declared) v w)
    (h : plainSlots c f kind declared v path = .ok l) :
    plainSlots c f kind declared w path = .ok l := by
  cases declared with
  | cons slot rest => exact slots_respelled below alike h
  | nil =>
    -- no entry is accepted, so that there is none
    unfold plainSlots slots at h
    split at h
    · next fields =>
      obtain ⟨entries, read, h⟩ := Outcome.bind_ok h
      cases entries with
      | nil =>
        obtain ⟨fields', rfl, read'⟩ := Selection.read_nothing alike read
        rw [plainSlots, slots, read']
        exact h
      | cons entry rest => simp [collect, slotEntry, byName, Table.ofList, Table.ofListBy, unknown,
          reject, bind, Except.bind] at h
    · simp [unsupported, reject] at h

theorem container_respelled {kind : String} {declared : List (Slot TypeRef)} {v w : Value}
    {l : Level} (below : KeepsBelow c v.weight f) (alike : Respelled c (.ofSlots declared) v w)
    (h : (if declared.isEmpty then untyped f v path
      else plainSlots c f kind declared (Selection.normalize v) path) = .ok l) :
    (if declared.isEmpty then untyped f w path
      else plainSlots c f kind declared (Selection.normalize w) path) = .ok l := by
  split at h
  · next none =>
    rw [Site.ofSlots, if_pos none] at alike
    rw [if_pos none]
    exact untyped_respelled below alike h
  · next some =>
    rw [if_neg some]
    exact plainSlots_respelled (by rwa [Selection.weight_normalize]) alike.normalize h

theorem structMembers_respelled {name : String} {v w : Value} {l : Level}
    (below : KeepsBelow c v.weight f) (alike : Respelled c (.ofType c (.typedStruct name)) v w)
    (h : structMembers c f name v path = .ok l) : structMembers c f name w path = .ok l := by
  obtain ⟨s, found, h⟩ := Outcome.bind_ok h
  have present := Catalog.struct_ok (ofCatalog_ok found)
  rw [Site.ofType, present] at alike
  rw [structMembers, found]
  exact slots_respelled below alike h

theorem unionEntry_respelled {declared : List (Member TypeRef)} {a b : Entry} {part : Level}
    (below : ∀ v, a.request.nested? = some v → KeepsBelow c (v.weight + 1) f)
    (alike : Entry.Respelled c (.members declared) a b)
    (h : unionEntry c f declared path a = .ok part) : unionEntry c f declared path b = .ok part := by
  obtain ⟨name, request⟩ := alike
  unfold unionEntry at h ⊢
  rw [name]
  split at h
  · simp [reject] at h
  · simp [unknown, reject] at h
  · next member bare found =>
    rw [bare] at request
    cases same : b.request with rw [same] at request
    | bare =>
      rw [found]
      exact h
    | _ => cases request
  · next v member keyed found =>
    have present : Site.member? declared a.name = some member := found
    obtain ⟨nested, worked, h⟩ := Outcome.bind_ok h
    have asked : a.request.nested? = some v := by rw [keyed]; rfl
    rw [keyed] at request
    cases same : b.request with rw [same] at request
    | keyed w =>
      cases request with
      | keyed alike =>
        have inner := alike.below (.ofType c member.type) (by simp [Site.under, present])
        rw [← Site.ofPosition_ofType] at inner
        rw [found]
        simp only
        rw [below v asked _ v w _ _ (Nat.lt_succ_self _) inner worked]
        exact h
    | _ => cases request

theorem unionMembers_respelled {declared : List (Member TypeRef)} {v w : Value} {l : Level}
    (below : KeepsBelow c v.weight f) (alike : Respelled c (.members declared) v w)
    (h : unionMembers c f declared v path = .ok l) : unionMembers c f declared w path = .ok l := by
  obtain ⟨fields, listed, h⟩ := Outcome.bind_ok h
  have weight := Selection.weight_normalize v
  rw [Selection.requireSome_eq listed, Value.weight] at weight
  obtain ⟨fields', listed', level⟩ := requireSome_respelled alike.normalize listed
  obtain ⟨_, same, kept⟩ := read_collect_respelled (below.mono (by omega)) level
    (fun a b one => unionEntry_respelled) h
  cases same
  rw [unionMembers, listed']
  exact kept

end
end Descent
end FieldPlan
