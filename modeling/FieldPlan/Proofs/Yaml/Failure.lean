import FieldPlan.Yaml
import Mathlib.Tactic.Tauto

/-! A tree has no value just if something in it goes wrong, and what goes wrong is either its form
or a scalar that has no value. -/
namespace FieldPlan.Yaml
variable {p : Failure → Prop}

def Levels.All (p : Failure → Prop) (l : Levels) : Prop := ∀ level ∈ l, ∀ f ∈ level, p f

@[simp]
theorem Levels.all_nil : Levels.All p [] := List.forall_mem_nil _

@[simp]
theorem Levels.all_cons {level : List Failure} {rest : Levels} :
    Levels.All p (level :: rest) ↔ (∀ f ∈ level, p f) ∧ Levels.All p rest :=
  List.forall_mem_cons

@[simp]
theorem Levels.all_beside {a b : Levels} :
    (a.beside b).All p ↔ a.All p ∧ b.All p := by
  induction a generalizing b with
  | nil => simp [beside]
  | cons level levels ih =>
    cases b with
    | nil => simp [beside]
    | cons other others =>
      simp only [beside, all_cons, List.forall_mem_append, ih]
      exact and_and_and_comm

def MappingLevels.All (p : Failure → Prop) (m : MappingLevels) : Prop :=
  (∀ f ∈ m.merging, p f) ∧ m.merged.All p ∧ m.own.All p

theorem MappingLevels.all_all {m : MappingLevels} : m.all.All p ↔ m.All p := by
  simp only [all, Levels.all_beside, Levels.all_cons, Levels.all_nil, and_true]
  rfl

namespace Node

/-! ### What goes wrong is told rightly -/

/-- If a scalar is said to have no value, it has none. -/
def Sound : Failure → Prop
  | .malformed => True
  | .unread tag text => tag ∈ [Tag.bool, .int, .float, .time] ∧ tag.value? text = none

theorem misplaced_sound (tag : Tag) : (misplaced tag).All Sound := by
  unfold misplaced
  split <;> simp [Sound]

theorem scalarLevels_sound (tag : Tag) (text : String) : (scalarLevels tag text).All Sound := by
  unfold scalarLevels
  split
  · exact Levels.all_nil
  · next none =>
    split
    · next kind =>
      have nothing : tag.value? text = Option.none := by simpa using none
      simp only [Levels.all_cons, Levels.all_nil, and_true, List.forall_mem_singleton]
      exact ⟨kind, nothing⟩
    · exact misplaced_sound tag

theorem keyLevels_sound (key : Node) : (keyLevels key).All Sound := by
  unfold keyLevels
  split
  · exact Levels.all_nil
  · next tag text _ =>
    simp only [Levels.all_cons, Levels.all_nil, and_true]
    intro f member
    obtain ⟨level, found, member⟩ := List.mem_flatten.mp member
    exact scalarLevels_sound tag text level found f member
  · simp [Sound]

mutual
theorem levels_sound : ∀ node : Node, node.levels.All Sound
  | .scalar tag text => by
    rw [levels]
    exact scalarLevels_sound tag text
  | .sequence tag items => by
    rw [levels]
    split
    · exact Levels.all_cons.mpr ⟨List.forall_mem_nil _, itemLevels_sound items⟩
    · exact misplaced_sound tag
  | .mapping tag entries => by
    rw [levels]
    split
    · exact Levels.all_cons.mpr
        ⟨List.forall_mem_nil _, MappingLevels.all_all.mpr (entryLevels_sound entries)⟩
    · exact misplaced_sound tag

theorem itemLevels_sound : ∀ items : List Node, (itemLevels items).All Sound
  | [] => by rw [itemLevels]; exact Levels.all_nil
  | item :: rest => by
    rw [itemLevels]
    exact Levels.all_beside.mpr ⟨levels_sound item, itemLevels_sound rest⟩

theorem entryLevels_sound : ∀ entries : List (Node × Node), (entryLevels entries).All Sound
  | [] => by
    rw [entryLevels]
    exact ⟨List.forall_mem_nil _, Levels.all_nil, Levels.all_nil⟩
  | (key, item) :: rest => by
    obtain ⟨merging, merged, own⟩ := entryLevels_sound rest
    rw [entryLevels]
    split
    · obtain ⟨brought_merging, brought⟩ := mergedLevels_sound item
      exact ⟨List.forall_mem_append.mpr ⟨brought_merging, merging⟩,
        Levels.all_beside.mpr ⟨brought, merged⟩, own⟩
    · have entry := Levels.all_beside.mpr ⟨levels_sound item, own⟩
      exact ⟨merging, merged, Levels.all_beside.mpr ⟨keyLevels_sound key, entry⟩⟩

theorem mergedLevels_sound : ∀ node : Node,
    (∀ f ∈ (mergedLevels node).1, Sound f) ∧ (mergedLevels node).2.All Sound
  | .mapping _ entries => by
    obtain ⟨merging, merged, own⟩ := entryLevels_sound entries
    rw [mergedLevels]
    exact ⟨merging, Levels.all_beside.mpr ⟨merged, own⟩⟩
  | .sequence _ items => by
    rw [mergedLevels]
    exact mergedAllLevels_sound items
  | .scalar _ _ => by
    rw [mergedLevels]
    exact ⟨List.forall_mem_singleton.mpr trivial, Levels.all_nil⟩

theorem mergedAllLevels_sound : ∀ items : List Node,
    (∀ f ∈ (mergedAllLevels items).1, Sound f) ∧ (mergedAllLevels items).2.All Sound
  | [] => by
    rw [mergedAllLevels]
    exact ⟨List.forall_mem_nil _, Levels.all_nil⟩
  | .mapping _ entries :: rest => by
    obtain ⟨merging, merged, own⟩ := entryLevels_sound entries
    obtain ⟨rest_merging, rest_merged⟩ := mergedAllLevels_sound rest
    rw [mergedAllLevels]
    have first := Levels.all_beside.mpr ⟨merged, own⟩
    exact ⟨List.forall_mem_append.mpr ⟨merging, rest_merging⟩,
      Levels.all_beside.mpr ⟨rest_merged, first⟩⟩
  | .scalar _ _ :: _ => by
    rw [mergedAllLevels]
    · exact ⟨List.forall_mem_singleton.mpr trivial, Levels.all_nil⟩
    · nofun
  | .sequence _ _ :: _ => by
    rw [mergedAllLevels]
    · exact ⟨List.forall_mem_singleton.mpr trivial, Levels.all_nil⟩
    · nofun
end

/-! ### Something goes wrong just where there is no value -/

def Never : Failure → Prop := fun _ => False

theorem not_misplaced_never (tag : Tag) : ¬ (misplaced tag).All Never := by
  unfold misplaced
  split <;> simp [Never]

theorem scalarLevels_never (tag : Tag) (text : String) :
    (scalarLevels tag text).All Never ↔ (tag.value? text).isSome := by
  unfold scalarLevels
  split
  · next found => simp [found]
  · next none =>
    split
    · simp [none, Never]
    · exact iff_of_false (not_misplaced_never tag) none

theorem flatten_never {l : Levels} : Levels.All Never [l.flatten] ↔ l.All Never := by
  simp only [Levels.all_cons, Levels.all_nil, and_true, List.forall_mem_flatten]
  rfl

theorem isKey_of_value? {tag : Tag} {text : String} {v : Value}
    (read : tag.value? text = some v) : isKey v = true := by
  cases tag with
  | null | str =>
    obtain rfl := Option.some.inj read
    rfl
  | bool | int | float | time =>
    obtain ⟨_, -, rfl⟩ := Option.map_eq_some_iff.mp read
    rfl
  | _ => cases read

theorem key?_scalar {tag : Tag} (usual : tag ≠ .default) (text : String) :
    key? (.scalar tag text) = tag.value? text := by
  rw [key?, value?]
  · cases read : tag.value? text with
    | none => rfl
    | some v => simp [isKey_of_value? read]
  · intro _ same
    cases same
    exact usual rfl

theorem key?_sequence (tag : Tag) (items : List Node) : key? (.sequence tag items) = none := by
  rw [key?, value?]
  · split
    · cases values? items <;> rfl
    · rfl
  · intro _ same
    cases same

theorem key?_mapping (tag : Tag) (entries : List (Node × Node)) :
    key? (.mapping tag entries) = none := by
  rw [key?, value?]
  · split
    · cases entries? entries <;> rfl
    · rfl
  · intro _ same
    cases same

theorem not_malformed_never : ¬ ∀ f ∈ [Failure.malformed], Never f := by simp [Never]

theorem keyLevels_never (key : Node) : (keyLevels key).All Never ↔ (key? key).isSome := by
  cases key with
  | scalar tag text =>
    by_cases default : tag = .default
    · subst default
      simp [keyLevels, key?]
    · rw [key?_scalar default, ← scalarLevels_never, keyLevels, flatten_never]
      exact default
  | sequence tag items => simp [keyLevels, key?_sequence, Never]
  | mapping tag entries => simp [keyLevels, key?_mapping, Never]

theorem isSome_pair {α β γ : Type} {a : Option α} {b : Option β} {g : α → β → γ} :
    (a.bind fun x => b.bind fun y => some (g x y)).isSome ↔ a.isSome ∧ b.isSome := by
  cases a <;> cases b <;> simp

theorem isSome_triple {α β γ δ : Type} {a : Option α} {b : Option β} {c : Option γ}
    {g : α → β → γ → δ} :
    (a.bind fun x => b.bind fun y => c.bind fun z => some (g x y z)).isSome ↔
      a.isSome ∧ b.isSome ∧ c.isSome := by
  cases a <;> cases b <;> cases c <;> simp

mutual
theorem levels_never : ∀ node : Node, node.levels.All Never ↔ (value? node).isSome
  | .scalar tag text => by
    rw [levels, value?]
    exact scalarLevels_never tag text
  | .sequence tag items => by
    rw [levels, value?]
    split
    · simp [itemLevels_never items]
    · simp [not_misplaced_never]
  | .mapping tag entries => by
    rw [levels, value?]
    split
    · simp [MappingLevels.all_all, entryLevels_never entries]
    · simp [not_misplaced_never]

theorem itemLevels_never : ∀ items : List Node,
    (itemLevels items).All Never ↔ (values? items).isSome
  | [] => by simp [itemLevels, values?]
  | item :: rest => by
    rw [itemLevels, values?, Levels.all_beside, levels_never item, itemLevels_never rest]
    exact isSome_pair.symm

theorem entryLevels_never : ∀ entries : List (Node × Node),
    (entryLevels entries).All Never ↔ (entries? entries).isSome
  | [] => by
    rw [entryLevels, entries?]
    exact iff_of_true ⟨List.forall_mem_nil _, Levels.all_nil, Levels.all_nil⟩ rfl
  | (key, item) :: rest => by
    rw [entryLevels, entries?]
    split
    · refine Iff.trans ?_ isSome_pair.symm
      rw [← mergedLevels_never item, ← entryLevels_never rest]
      simp only [MappingLevels.All, Levels.all_beside, List.forall_mem_append]
      tauto
    · refine Iff.trans ?_ isSome_triple.symm
      rw [← keyLevels_never key, ← levels_never item, ← entryLevels_never rest]
      simp only [MappingLevels.All, Levels.all_beside]
      tauto

theorem mergedLevels_never : ∀ node : Node,
    ((∀ f ∈ (mergedLevels node).1, Never f) ∧ (mergedLevels node).2.All Never) ↔
      (merged? node).isSome
  | .mapping _ entries => by
    rw [mergedLevels, merged?, Option.isSome_map, ← entryLevels_never entries, Levels.all_beside]
    rfl
  | .sequence _ items => by
    rw [mergedLevels, merged?]
    exact mergedAllLevels_never items
  | .scalar _ _ => by
    rw [mergedLevels, merged?]
    exact iff_of_false (fun never => not_malformed_never never.1) nofun

theorem mergedAllLevels_never : ∀ items : List Node,
    ((∀ f ∈ (mergedAllLevels items).1, Never f) ∧ (mergedAllLevels items).2.All Never) ↔
      (mergedAll? items).isSome
  | [] => by
    rw [mergedAllLevels, mergedAll?]
    exact iff_of_true ⟨List.forall_mem_nil _, Levels.all_nil⟩ rfl
  | .mapping _ entries :: rest => by
    rw [mergedAllLevels, mergedAll?]
    refine Iff.trans ?_ isSome_pair.symm
    rw [← entryLevels_never entries, ← mergedAllLevels_never rest]
    simp only [MappingLevels.All, Levels.all_beside, List.forall_mem_append]
    tauto
  | .scalar _ _ :: _ => by
    rw [mergedAllLevels, mergedAll?]
    · exact iff_of_false (fun never => not_malformed_never never.1) nofun
    · nofun
    · nofun
  | .sequence _ _ :: _ => by
    rw [mergedAllLevels, mergedAll?]
    · exact iff_of_false (fun never => not_malformed_never never.1) nofun
    · nofun
    · nofun
end

/-! ### Reading -/

theorem read_eq_ok_iff {node : Node} {v : Value} : node.read = .ok v ↔ value? node = some v := by
  unfold read
  cases value? node <;> simp

/-- What goes wrong first is among what goes wrong. -/
theorem mem_of_read_error {node : Node} {f : Failure} (failed : node.read = .error f) :
    ∃ level ∈ node.levels, f ∈ level := by
  have valueless : value? node = none := by
    unfold read at failed
    cases found : value? node with
    | none => rfl
    | some v => simp [found] at failed
  have wrong : node.levels.flatten ≠ [] := by
    intro nothing
    have never : node.levels.All Never := flatten_never.mp (by simp [nothing])
    have some := (levels_never node).mp never
    rw [valueless] at some
    cases some
  obtain ⟨first, rest, same⟩ := List.exists_cons_of_ne_nil wrong
  rw [read, valueless, same] at failed
  obtain rfl : first = f := Except.error.inj failed
  apply List.mem_flatten.mp
  rw [same]
  exact List.mem_cons_self

end Node

theorem load_eq_ok_iff {text : String} {v : Value} :
    load text = .ok v ↔ ∃ root, Node.parse? text = some root ∧ root.value? = some v := by
  unfold load read
  cases Node.parse? text with
  | none => simp [Except.mapError]
  | some root =>
    simp only [Option.some.injEq, exists_eq_left', ← Node.read_eq_ok_iff]
    cases root.read <;> simp [Except.mapError]

theorem load_stopped {text words : String} (stopped : load text = .error (.stopped words)) :
    ∃ tag ∈ [Tag.bool, .int, .float, .time], tag.value? words = none := by
  obtain ⟨tag, failed⟩ : ∃ tag, read text = .error (.unread tag words) := by
    unfold load at stopped
    cases given : read text with
    | ok v => simp [given, Except.mapError] at stopped
    | error f =>
      cases f with
      | malformed => simp [given, Except.mapError, Failure.stop] at stopped
      | unread tag scalar =>
        obtain rfl : scalar = words := by simpa [given, Except.mapError, Failure.stop] using stopped
        exact ⟨tag, rfl⟩
  unfold read at failed
  split at failed
  · next root _ =>
    obtain ⟨level, wrong, member⟩ := Node.mem_of_read_error failed
    exact ⟨tag, Node.levels_sound root level wrong _ member⟩
  · cases failed

end FieldPlan.Yaml
