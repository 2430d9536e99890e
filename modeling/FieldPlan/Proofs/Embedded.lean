import FieldPlan.Proofs.Mention

/-! The exposed names with the embedded resources behind them: what is listed, and that the
list is closed. Names are looked at in the order of the list, and a name once listed keeps its
place, so the names before the place have been looked at. -/
namespace FieldPlan
namespace Catalog
variable {c : Catalog} {names : List String} {name held : String}

theorem embeddedMention?_iff {m : Mention} : c.embeddedMention? m = some name ↔
    (m = .resource name ∨ m = .instance name ∧ name ≠ "") ∧ c.isEmbedded name = true := by
  cases m with
  | resource other =>
    rw [embeddedMention?, Option.ite_none_right_eq_some, Option.some.injEq]
    constructor
    · rintro ⟨embedded, rfl⟩
      exact ⟨Or.inl rfl, embedded⟩
    · rintro ⟨same | ⟨same, -⟩, embedded⟩
      · cases same
        exact ⟨embedded, rfl⟩
      · cases same
  | «instance» other =>
    rw [embeddedMention?, Option.ite_none_right_eq_some, Option.some.injEq, Bool.and_eq_true,
      bne_iff_ne]
    constructor
    · rintro ⟨⟨named, embedded⟩, rfl⟩
      exact ⟨Or.inr ⟨rfl, named⟩, embedded⟩
    · rintro ⟨same | ⟨same, named⟩, embedded⟩
      · cases same
      · cases same
        exact ⟨⟨named, embedded⟩, rfl⟩
  | _ =>
    constructor
    · nofun
    · rintro ⟨same | ⟨same, -⟩, -⟩ <;> cases same

theorem mem_embeddedIn {r : Resource} (found : c.resource? name = some r) :
    held ∈ c.embeddedIn name ↔
      ∃ t ∈ c.fieldTypes r, ∃ m ∈ c.mentions t, c.embeddedMention? m = some held := by
  rw [embeddedIn, found, List.mem_flatMap]
  simp only [List.mem_filterMap]

theorem isEmbedded_of_mem (h : held ∈ c.embeddedIn name) : c.isEmbedded held = true := by
  cases found : c.resource? name with
  | none =>
    rw [embeddedIn, found] at h
    exact absurd h List.not_mem_nil
  | some r =>
    obtain ⟨t, -, m, -, same⟩ := (mem_embeddedIn found).1 h
    exact (embeddedMention?_iff.1 same).2

/-! ### Names listed once -/

theorem mem_addName : held ∈ addName names name ↔ held ∈ names ∨ held = name := by
  unfold addName
  split
  · next present =>
    refine ⟨Or.inl, ?_⟩
    rintro (old | rfl)
    · exact old
    · exact List.contains_iff_mem.1 present
  · simp

theorem addName_nodup (h : names.Nodup) : (addName names name).Nodup := by
  unfold addName
  split
  · exact h
  · next absent =>
    refine List.nodup_append.2 ⟨h, List.nodup_cons.2 ⟨List.not_mem_nil, List.nodup_nil⟩, ?_⟩
    intro old member new last same
    rw [List.mem_singleton.1 last] at same
    exact absent (List.contains_iff_mem.2 (same ▸ member))

theorem addName_extends : names <+: addName names name := by
  unfold addName
  split
  · exact List.prefix_rfl
  · exact List.prefix_append _ _

theorem mem_addNames {more : List String} :
    held ∈ more.foldl addName names ↔ held ∈ names ∨ held ∈ more := by
  induction more generalizing names with
  | nil => simp
  | cons name more ih => rw [List.foldl_cons, ih, mem_addName, List.mem_cons, or_assoc]

theorem addNames_nodup {more : List String} (h : names.Nodup) :
    (more.foldl addName names).Nodup := by
  induction more generalizing names with
  | nil => exact h
  | cons name more ih => exact ih (addName_nodup h)

theorem addNames_extends {more : List String} : names <+: more.foldl addName names := by
  induction more generalizing names with
  | nil => exact List.prefix_rfl
  | cons name more ih => exact addName_extends.trans ih

/-! ### Names looked at -/

inductive Holds (c : Catalog) (names : List String) : String → Prop
  | given {name : String} : name ∈ names → Holds c names name
  | held {name held : String} : Holds c names name → held ∈ c.embeddedIn name →
      Holds c names held

theorem Holds.name_mem (h : c.Holds names name) :
    name ∈ names ++ c.resources.map Resource.name := by
  cases h with
  | given member => exact List.mem_append_left _ member
  | held _ member =>
    have present := hasResource_of_isEmbedded (isEmbedded_of_mem member)
    exact List.mem_append_right _ (mem_resource_names present)

/-- The list when the names before the place have been looked at. -/
structure Looked (c : Catalog) (names : List String) (place : Nat) (listed : List String) :
    Prop where
  nodup : listed.Nodup
  given : names ⊆ listed
  sound : ∀ name ∈ listed, c.Holds names name
  seen : ∀ name ∈ listed.take place, c.embeddedIn name ⊆ listed

variable {place : Nat} {listed : List String}

theorem Looked.length_le (h : c.Looked names place listed) :
    listed.length ≤ names.length + c.resources.length := by
  have within : listed ⊆ names ++ c.resources.map Resource.name :=
    fun _ member => (h.sound _ member).name_mem
  have bound := (List.subperm_of_subset h.nodup within).length_le
  rwa [List.length_append, List.length_map] at bound

theorem looked_start (c : Catalog) (names : List String) :
    c.Looked names 0 (names.foldl addName []) where
  nodup := addNames_nodup List.nodup_nil
  given _ member := mem_addNames.2 (Or.inr member)
  sound _ member := .given ((mem_addNames.1 member).resolve_left List.not_mem_nil)
  seen _ absent := absurd absent List.not_mem_nil

theorem Looked.step (h : c.Looked names place listed) (here : listed[place]? = some name) :
    c.Looked names (place + 1) ((c.embeddedIn name).foldl addName listed) where
  nodup := addNames_nodup h.nodup
  given := fun _ member => mem_addNames.2 (Or.inl (h.given member))
  sound := by
    intro other member
    rcases mem_addNames.1 member with old | new
    · exact h.sound other old
    · exact .held (h.sound name (List.mem_of_getElem? here)) new
  seen := by
    intro other member
    obtain ⟨inside, same⟩ := List.getElem?_eq_some_iff.1 here
    have front : ((c.embeddedIn name).foldl addName listed).take (place + 1) =
        listed.take place ++ [name] := by
      have extended : listed <+: (c.embeddedIn name).foldl addName listed := addNames_extends
      obtain ⟨added, extended⟩ := extended
      rw [← extended, List.take_append_of_le_length inside, List.take_add_one, here]
      rfl
    rw [front, List.mem_append, List.mem_singleton] at member
    intro held inOther
    rcases member with old | rfl
    · exact mem_addNames.2 (Or.inl (h.seen other old inOther))
    · exact mem_addNames.2 (Or.inr inOther)

theorem Looked.finish (h : c.Looked names place listed) (past : listed.length ≤ place) :
    c.Looked names listed.length listed := by
  refine ⟨h.nodup, h.given, h.sound, ?_⟩
  intro name member
  rw [List.take_length, ← List.take_of_length_le past] at member
  exact h.seen name member

/-- With one step for each name that may come, all names have been looked at. -/
theorem Looked.expose {n : Nat} (h : c.Looked names place listed)
    (enough : names.length + c.resources.length ≤ n + place) :
    c.Looked names (c.expose n place listed).length (c.expose n place listed) := by
  induction n generalizing place listed with
  | zero => exact h.finish (by have := h.length_le; omega)
  | succ n ih =>
    rw [Catalog.expose]
    split
    · next past => exact h.finish (List.getElem?_eq_none_iff.1 past)
    · next name here => exact ih (h.step here) (by omega)

theorem looked_withEmbedded (c : Catalog) (names : List String) :
    c.Looked names (c.withEmbedded names).length (c.withEmbedded names) :=
  (looked_start c names).expose (Nat.le_refl _)

theorem withEmbedded_given (h : name ∈ names) : name ∈ c.withEmbedded names :=
  (looked_withEmbedded c names).given h

theorem withEmbedded_closed (h : name ∈ c.withEmbedded names) (holds : held ∈ c.embeddedIn name) :
    held ∈ c.withEmbedded names := by
  have all := (looked_withEmbedded c names).seen
  rw [List.take_length] at all
  exact all name h holds

theorem mem_withEmbedded : name ∈ c.withEmbedded names ↔ c.Holds names name := by
  refine ⟨(looked_withEmbedded c names).sound name, ?_⟩
  intro holds
  induction holds with
  | given member => exact withEmbedded_given member
  | held _ member ih => exact withEmbedded_closed ih member

end Catalog
end FieldPlan
