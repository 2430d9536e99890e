import Mathlib.Data.List.Chain
import Mathlib.Data.List.Perm.Subperm
import Mathlib.Logic.Relation

/-! Names opened to a depth. What comes to hold of a name at a late depth comes to hold of another
one at the depth before, so there is a chain of names that all differ; and where these are
taken from a list, what holds at any depth holds once the list is used up. A chain with more
members than that comes back to one of them. -/
namespace FieldPlan

/-- What holds of a name at a depth holds at the next one. If it comes to hold late, the name is
listed, and it comes to hold of another name one level earlier. -/
structure Deepens (names : List String) (holds : Nat → String → Prop) : Prop where
  step : ∀ n name, holds n name → holds (n + 1) name
  inside : ∀ n name, holds (n + 2) name → ¬holds (n + 1) name →
    name ∈ names ∧ ∃ inner, holds (n + 1) inner ∧ ¬holds n inner

namespace Deepens
variable {names : List String} {holds : Nat → String → Prop} {n k : Nat} {name : String}

theorem mono (h : Deepens names holds) (le : n ≤ k) (held : holds n name) : holds k name := by
  induction le with
  | refl => exact held
  | step _ ih => exact h.step _ _ ih

theorem depth_unique (h : Deepens names holds) (first : holds (n + 1) name) (before : ¬holds n name)
    (second : holds (k + 1) name) (before' : ¬holds k name) : n = k := by
  rcases Nat.lt_trichotomy n k with lt | same | gt
  · exact absurd (h.mono lt first) before'
  · exact same
  · exact absurd (h.mono gt second) before

/-- One name for every level down to the first, all of them different. -/
theorem chain (h : Deepens names holds) (late : holds (n + 1) name) (before : ¬holds n name) :
    ∃ opened : List String, opened.length = n ∧ opened.Nodup ∧ opened ⊆ names ∧
      ∀ s ∈ opened, ∃ k ≤ n, holds (k + 1) s ∧ ¬holds k s := by
  -- the depths of the names in the chain tell that the next one is new
  induction n generalizing name with
  | zero => exact ⟨[], rfl, List.nodup_nil, List.nil_subset _, by simp⟩
  | succ n ih =>
    obtain ⟨listed, inner, early, before'⟩ := h.inside n name late before
    obtain ⟨opened, length, distinct, within, depths⟩ := ih early before'
    have fresh : name ∉ opened := by
      intro again
      obtain ⟨k, le, first, none⟩ := depths name again
      have := h.depth_unique late before first none
      omega
    refine ⟨name :: opened, by rw [List.length_cons, length],
      List.nodup_cons.2 ⟨fresh, distinct⟩, List.cons_subset.2 ⟨listed, within⟩, ?_⟩
    intro s member
    rcases List.mem_cons.1 member with rfl | older
    · exact ⟨n + 1, Nat.le_refl _, late, before⟩
    · obtain ⟨k, le, held⟩ := depths s older
      exact ⟨k, Nat.le_succ_of_le le, held⟩

/-- Nothing comes to hold beyond the depth at which all names are used up. -/
theorem enough (h : Deepens names holds) (held : holds n name) :
    holds (names.length + 1) name := by
  induction n with
  | zero => exact h.mono (Nat.zero_le _) held
  | succ n ih =>
    by_cases early : holds n name
    · exact ih early
    · obtain ⟨opened, length, distinct, within, -⟩ := h.chain held early
      have short := (List.subperm_of_subset distinct within).length_le
      rw [length] at short
      exact h.mono (Nat.succ_le_succ short) held

end Deepens

/-! ### Chains -/

section
variable {α : Type} {R : α → α → Prop} {first x : α} {chain : List α}

/-- A chain none of whose members comes back to itself visits each at most once. -/
theorem nodup_chain (linked : chain.IsChain R) (once : ∀ x ∈ chain, ¬ Relation.TransGen R x x) :
    chain.Nodup := by
  have later : chain.Pairwise (Relation.TransGen R) :=
    List.isChain_iff_pairwise.1 (linked.imp fun _ _ => .single)
  apply later.imp_of_mem
  intro x y member _ passes same
  subst same
  exact once x member passes

/-- A chain with more members than there are to take them from comes back to one of them. -/
theorem comes_back {all : List α} (linked : chain.IsChain R) (within : chain ⊆ all)
    (long : all.length < chain.length) : ∃ x ∈ chain, Relation.TransGen R x x := by
  by_contra never
  have once : ∀ x ∈ chain, ¬ Relation.TransGen R x x := fun x member again =>
    never ⟨x, member, again⟩
  have short := (List.subperm_of_subset (nodup_chain linked once) within).length_le
  omega

theorem chain_reaches (linked : (first :: chain).IsChain R) (member : x ∈ first :: chain) :
    Relation.ReflTransGen R first x := by
  rcases List.mem_cons.1 member with rfl | later
  · exact .refl
  · have passes := List.isChain_iff_pairwise.1 (linked.imp fun _ _ => Relation.TransGen.single)
    exact ((List.pairwise_cons.1 passes).1 x later).to_reflTransGen

end
end FieldPlan
