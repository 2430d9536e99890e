import FieldPlan.Proofs.Arrays
import FieldPlan.Proofs.Summaries

/-! The way from an aggregate to its type. It leads from aggregate to aggregate, and the type is
found where it ends, in one more array for each list that is made on the way. On a way that comes
by an aggregate a second time the type is never found. -/
namespace FieldPlan.Catalog
variable {c : Catalog} {x y last : Resource × Aggregate} {visited : List (Resource × Aggregate)}

/-- All aggregates from the first on, each summing up the next, down to one that sums up none. -/
inductive ComesTo (c : Catalog) :
    Resource × Aggregate → List (Resource × Aggregate) → Resource × Aggregate → Prop
  | here {x : Resource × Aggregate} (alone : ∀ y, ¬ c.SumsUp x y) : ComesTo c x [x] x
  | onward {x y last : Resource × Aggregate} {visited : List (Resource × Aggregate)}
      (sums : c.SumsUp x y) (rest : ComesTo c y visited last) : ComesTo c x (x :: visited) last

theorem ComesTo.chain (h : c.ComesTo x visited last) :
    ∃ later, visited = x :: later ∧ visited.IsChain c.SumsUp := by
  induction h with
  | here alone => exact ⟨[], rfl, .singleton _⟩
  | onward sums rest ih =>
    obtain ⟨later, rfl, linked⟩ := ih
    exact ⟨_, rfl, linked.cons_cons sums⟩

/-! ### Types at the end -/

theorem Resolution.wrap_arrays (type : Option TypeRef) (k : Nat) (many : Bool) :
    (Resolution.ofOption (type.map (TypeRef.arrays k))).wrap many =
      Resolution.ofOption (type.map (TypeRef.arrays (k + if many then 1 else 0))) := by
  cases type with
  | none => rfl
  | some t => cases many <;> rfl

theorem SumsUp.makesList (h : c.SumsUp x y) : makesList x = (x.2.kind == .list) := by
  rw [Catalog.makesList, h.untyped]
  rfl

theorem ComesTo.resolve (h : c.ComesTo x visited last) (n : Nat) :
    c.resolveAggregate n x.1 x.2 = if visited.length ≤ n + 1 then
      .ofOption ((c.baseType? last).map (TypeRef.arrays (visited.countP makesList)))
    else .unfinished := by
  induction h generalizing n with
  | @here x alone =>
    have enough : [x].length ≤ n + 1 := Nat.le_add_left 1 n
    have base : (c.baseType? x).map (TypeRef.arrays 0) = c.baseType? x := by
      cases c.baseType? x <;> rfl
    have wrapped := Resolution.wrap_arrays (c.baseType? x) 0 (makesList x)
    rw [base, Nat.zero_add] at wrapped
    rw [if_pos enough, resolve_alone alone, List.countP_singleton]
    exact wrapped
  | @onward x y last visited sums rest ih =>
    rw [sums.resolve, List.length_cons]
    cases n with
    | zero =>
      obtain ⟨later, rfl, -⟩ := rest.chain
      rw [if_neg (by simp)]
      rfl
    | succ n =>
      rw [resolveThrough, ih, List.countP_cons, sums.makesList]
      simp only [Nat.add_le_add_iff_right]
      split
      · exact Resolution.wrap_arrays _ _ _
      · rfl

/-! ### Ways that end, and ways that do not -/

theorem comesTo_of_finished {n : Nat} (h : c.resolveAggregate n x.1 x.2 ≠ .unfinished) :
    ∃ visited last, c.ComesTo x visited last := by
  induction n generalizing x with
  | zero =>
    by_cases sums : ∃ y, c.SumsUp x y
    · obtain ⟨y, sums⟩ := sums
      exact absurd (sums.resolve 0) h
    · exact ⟨_, _, .here (not_exists.1 sums)⟩
  | succ n ih =>
    by_cases sums : ∃ y, c.SumsUp x y
    · obtain ⟨y, sums⟩ := sums
      rw [sums.resolve, resolveThrough, ne_eq, Resolution.wrap_eq_unfinished] at h
      obtain ⟨visited, last, rest⟩ := ih h
      exact ⟨_, _, .onward sums rest⟩
    · exact ⟨_, _, .here (not_exists.1 sums)⟩

/-- What is summed up by an aggregate is found in fewer steps. -/
theorem finished_of_passes {n : Nat} (passes : Relation.TransGen c.SumsUp x y)
    (h : c.resolveAggregate n x.1 x.2 ≠ .unfinished) :
    ∃ m < n, c.resolveAggregate m y.1 y.2 ≠ .unfinished := by
  have step {x y : Resource × Aggregate} {n : Nat} (sums : c.SumsUp x y)
      (h : c.resolveAggregate n x.1 x.2 ≠ .unfinished) :
      ∃ m < n, c.resolveAggregate m y.1 y.2 ≠ .unfinished := by
    cases n with
    | zero => exact absurd (sums.resolve 0) h
    | succ n =>
      rw [sums.resolve, resolveThrough, ne_eq, Resolution.wrap_eq_unfinished] at h
      exact ⟨n, Nat.lt_succ_self n, h⟩
  induction passes with
  | single sums => exact step sums h
  | tail _ sums ih =>
    obtain ⟨m, lt, found⟩ := ih
    obtain ⟨k, lt', found'⟩ := step sums found
    exact ⟨k, Nat.lt_trans lt' lt, found'⟩

theorem not_passes_self {n : Nat} (h : c.resolveAggregate n x.1 x.2 ≠ .unfinished) :
    ¬ Relation.TransGen c.SumsUp x x := by
  induction n using Nat.strongRecOn with
  | ind n ih =>
    intro round
    obtain ⟨m, lt, found⟩ := finished_of_passes round h
    exact ih m lt found round

/-- From an aggregate whose type is found no way comes by one a second time. -/
theorem nodup_of_finished {n : Nat} {later : List (Resource × Aggregate)}
    (h : c.resolveAggregate n x.1 x.2 ≠ .unfinished) (linked : (x :: later).IsChain c.SumsUp) :
    (x :: later).Nodup := by
  apply nodup_chain linked
  intro y member
  rcases List.mem_cons.1 member with rfl | after
  · exact not_passes_self h
  · have passes : Relation.TransGen c.SumsUp x y :=
      (List.pairwise_cons.1 (List.isChain_iff_pairwise.1
        (linked.imp fun _ _ => Relation.TransGen.single))).1 y after
    obtain ⟨m, -, found⟩ := finished_of_passes passes h
    exact not_passes_self found

theorem finished_of_nodup (listed : x ∈ c.aggregates)
    (once : ∀ later, (x :: later).IsChain c.SumsUp → (x :: later).Nodup) :
    c.resolveAggregate c.aggregateCount x.1 x.2 ≠ .unfinished := by
  intro unfinished
  obtain ⟨later, length, linked⟩ := chain_of_unfinished unfinished
  have short := (List.subperm_of_subset (once later linked) (chain_mem linked listed)).length_le
  rw [List.length_cons, length, length_aggregates] at short
  omega

variable {r : Resource} {a : Aggregate}

/-- If no way from an aggregate comes by one a second time, there is one to its end, of no more
aggregates than the catalog has; in as many steps, and not in fewer, the type is found, which is
that at the end in an array for each list on the way. If one does, no number of steps is enough. -/
theorem aggregateType_follows (listed : r ∈ c.resources) (declared : a ∈ r.publicAggregates) :
    ((∀ later, ((r, a) :: later).IsChain c.SumsUp → ((r, a) :: later).Nodup) →
      ∃ visited last, c.ComesTo (r, a) visited last ∧ visited.length ≤ c.aggregateCount ∧
        (∀ n, c.resolveAggregate n r a ≠ .unfinished ↔ visited.length ≤ n + 1) ∧
        (∀ n, visited.length ≤ n + 1 → c.resolveAggregate n r a =
          .ofOption ((c.baseType? last).map (TypeRef.arrays (visited.countP makesList)))) ∧
        c.aggregateType r a =
          .ofOption ((c.baseType? last).map (TypeRef.arrays (visited.countP makesList)))) ∧
    ((∃ later, ((r, a) :: later).IsChain c.SumsUp ∧ ¬ ((r, a) :: later).Nodup) →
      ∀ n, c.resolveAggregate n r a = .unfinished) := by
  constructor
  · intro once
    have member : (r, a) ∈ c.aggregates := mem_aggregates.2 ⟨listed, declared⟩
    obtain ⟨visited, last, way⟩ := comesTo_of_finished (finished_of_nodup member once)
    have resolved := way.resolve
    obtain ⟨later, same, linked⟩ := way.chain
    have bounded : visited.length ≤ c.aggregateCount := by
      subst same
      rw [← length_aggregates]
      exact (List.subperm_of_subset (once later linked) (chain_mem linked member)).length_le
    have found (n : Nat) (enough : visited.length ≤ n + 1) : c.resolveAggregate n r a =
        .ofOption ((c.baseType? last).map (TypeRef.arrays (visited.countP makesList))) := by
      rw [resolved n, if_pos enough]
    refine ⟨visited, last, way, bounded, ?_, found, found _ (Nat.le_succ_of_le bounded)⟩
    intro n
    constructor
    · intro finished
      by_contra short
      exact finished (by rw [resolved n, if_neg short])
    · intro enough
      rw [found n enough]
      cases (c.baseType? last).map (TypeRef.arrays (visited.countP makesList)) <;> nofun
  · rintro ⟨later, linked, again⟩ n
    by_contra finished
    exact again (nodup_of_finished (x := (r, a)) finished linked)

/-! ### A bank -/

namespace Bank

def amounts : Aggregate where
  name := "amounts"
  kind := .list
  field := some "amount"

def echo : Aggregate where
  name := "echo"
  kind := .sum
  field := some "echo"

def account : Resource where
  name := "Account"
  attributes := [{ name := "amount", type := .primitive .integer [] }]
  aggregates := [amounts, echo]

def statements : Aggregate where
  name := "statements"
  kind := .list
  path := ["accounts"]
  field := some "amounts"

def bank : Resource where
  name := "Bank"
  aggregates := [statements]
  relationships := [{ name := "accounts", destination := "Account" }]

def catalog : Catalog := ⟨[account, bank], []⟩

theorem echo_sums : catalog.SumsUp (account, echo) (account, echo) where
  untyped := rfl
  kind := by decide
  owner := rfl
  named := ⟨"echo", by with_unfolding_all exact ⟨rfl, rfl, rfl, rfl⟩⟩

end Bank

/-- The statements are lists of the lists of amounts, and the type of the echo is never found. -/
theorem bank_follows :
    (∃ visited last, Bank.catalog.ComesTo (Bank.bank, Bank.statements) visited last ∧
      visited.length ≤ 3) ∧
    Bank.catalog.aggregateType Bank.bank Bank.statements =
      .found (.array (.array (.primitive .integer []))) ∧
    ∀ n, Bank.catalog.resolveAggregate n Bank.account Bank.echo = .unfinished := by
  have stated : Bank.bank.publicAggregates = [Bank.statements] := by with_unfolding_all rfl
  have echoed : Bank.account.publicAggregates = [Bank.amounts, Bank.echo] := by
    with_unfolding_all rfl
  have found : Bank.catalog.resolveAggregate 1 Bank.bank Bank.statements =
      .found (.array (.array (.primitive .integer []))) := by
    with_unfolding_all rfl
  have finished : Bank.catalog.resolveAggregate 1 Bank.bank Bank.statements ≠ .unfinished := by
    rw [found]
    nofun
  have bank : Bank.bank ∈ Bank.catalog.resources := by simp [Bank.catalog]
  have account : Bank.account ∈ Bank.catalog.resources := by simp [Bank.catalog]
  obtain ⟨visited, last, way, bounded, -, -, -⟩ :=
    (aggregateType_follows bank (a := Bank.statements) (by simp [stated])).1
      fun _ linked => nodup_of_finished finished linked
  have lost := (aggregateType_follows account (a := Bank.echo) (by simp [echoed])).2
    ⟨[(Bank.account, Bank.echo)], by simpa using Bank.echo_sums, by simp⟩
  exact ⟨⟨visited, last, way, bounded⟩, by with_unfolding_all rfl, lost⟩

end FieldPlan.Catalog
