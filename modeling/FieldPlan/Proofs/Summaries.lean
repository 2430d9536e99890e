import FieldPlan.Classification
import FieldPlan.Proofs.Depth

/-! Aggregates that sum up aggregates. The type of such an aggregate is that of the one that it
sums up, and so on. Where no aggregate comes back to itself on this way, the way visits each
aggregate of the catalog at most once, so it ends within the steps that it is given. -/
namespace FieldPlan.Catalog
variable {c : Catalog} {r : Resource} {a : Aggregate} {x y : Resource × Aggregate}

/-- The type of the first aggregate is taken from the second, to which its path and field lead. -/
structure SumsUp (c : Catalog) (x y : Resource × Aggregate) : Prop where
  untyped : x.2.type = none
  kind : x.2.kind ∉ [AggregateKind.count, .exists, .avg]
  owner : c.follow x.1 x.2.path = some y.1
  named : ∃ field, x.2.field = some field ∧ y.1.attribute? field = none ∧
    y.1.calculation? field = none ∧ y.1.aggregate? field = some y.2

/-- No aggregate of the catalog sums up itself, be it through others. -/
def SummariesEnd (c : Catalog) : Prop :=
  ∀ r ∈ c.resources, ∀ a ∈ r.publicAggregates, ¬ Relation.TransGen c.SumsUp (r, a) (r, a)

def aggregates (c : Catalog) : List (Resource × Aggregate) :=
  c.resources.flatMap fun r => r.publicAggregates.map (r, ·)

theorem length_aggregates : c.aggregates.length = c.aggregateCount := by
  simp [aggregates, aggregateCount, List.length_flatMap]

theorem mem_aggregates : x ∈ c.aggregates ↔ x.1 ∈ c.resources ∧ x.2 ∈ x.1.publicAggregates := by
  obtain ⟨r, a⟩ := x
  simp [aggregates]

theorem follow_mem {path : List String} {owner : Resource} (listed : r ∈ c.resources)
    (h : c.follow r path = some owner) : owner ∈ c.resources := by
  induction path generalizing r with
  | nil =>
    obtain rfl := Option.some.inj h
    exact listed
  | cons name rest ih =>
    rw [follow] at h
    split at h
    · next next found =>
      obtain ⟨link, -, present⟩ := Option.bind_eq_some_iff.1 found
      exact ih (List.mem_of_find?_eq_some present) h
    · contradiction

theorem SumsUp.mem (h : c.SumsUp x y) (listed : x.1 ∈ c.resources) : y ∈ c.aggregates := by
  obtain ⟨field, -, -, -, present⟩ := h.named
  exact mem_aggregates.2 ⟨follow_mem listed h.owner, List.mem_of_find?_eq_some present⟩

theorem SumsUp.unique {y' : Resource × Aggregate} (h : c.SumsUp x y) (h' : c.SumsUp x y') :
    y = y' := by
  obtain ⟨field, named, -, -, present⟩ := h.named
  obtain ⟨field', named', -, -, present'⟩ := h'.named
  have owner : y.1 = y'.1 := Option.some.inj (h.owner.symm.trans h'.owner)
  obtain rfl : field = field' := Option.some.inj (named.symm.trans named')
  rw [owner] at present
  exact Prod.ext owner (Option.some.inj (present.symm.trans present'))

/-! ### Steps -/

def Resolution.wrap (many : Bool) : Resolution → Resolution
  | .found t => .found (if many then .array t else t)
  | outcome => outcome

theorem Resolution.wrap_eq_unfinished {many : Bool} {outcome : Resolution} :
    outcome.wrap many = .unfinished ↔ outcome = .unfinished := by
  cases outcome <;> simp [wrap]

/-- What so many steps give when the first of them goes to another aggregate. -/
def resolveThrough (c : Catalog) (many : Bool) (y : Resource × Aggregate) : Nat → Resolution
  | 0 => .unfinished
  | n + 1 => (c.resolveAggregate n y.1 y.2).wrap many

theorem SumsUp.resolve (h : c.SumsUp (r, a) y) (n : Nat) :
    c.resolveAggregate n r a = c.resolveThrough (a.kind == .list) y n := by
  obtain ⟨untyped, kind, followed, field, named, stored, derived, present⟩ := h
  rw [resolveAggregate.eq_def]
  dsimp only at untyped kind followed named ⊢
  split
  · next typed => simp [untyped] at typed
  · next counts => simp [counts] at kind
  · next tells => simp [tells] at kind
  · next averages => simp [averages] at kind
  · rw [followed, named]
    dsimp only
    rw [stored, derived, present]
    cases n with
    | zero => rfl
    | succ n =>
      rw [resolveThrough]
      cases same : c.resolveAggregate n y.1 y.2 <;> simp only [same] <;> rfl

/-- What is found out at an aggregate itself: its type, if it has one of its own, or that of a field
that it sums up. -/
def baseType? (c : Catalog) (x : Resource × Aggregate) : Option TypeRef :=
  match x.2.type, x.2.kind with
  | some t, _ => some t
  | none, .count => some (.primitive .integer [])
  | none, .exists => some (.primitive .boolean [])
  | none, .avg => some (.primitive .float [])
  | none, _ => do
    let owner ← c.follow x.1 x.2.path
    let field ← x.2.field
    ((owner.attribute? field).map Attribute.type).or
      ((owner.calculation? field).map Calculation.type)

def makesList (x : Resource × Aggregate) : Bool := x.2.type.isNone && x.2.kind == .list

theorem resolve_alone (alone : ∀ y, ¬ c.SumsUp (r, a) y) (n : Nat) :
    c.resolveAggregate n r a =
      (Resolution.ofOption (c.baseType? (r, a))).wrap (makesList (r, a)) := by
  rw [resolveAggregate.eq_def, baseType?, makesList]
  dsimp only
  split
  · next t kind typed =>
    simp only [typed]
    rfl
  · next untyped counts =>
    simp only [untyped, counts]
    rfl
  · next untyped tells =>
    simp only [untyped, tells]
    rfl
  · next untyped averages =>
    simp only [untyped, averages]
    rfl
  · next untyped counts tells averages =>
    simp only [untyped, Option.isNone_none, Bool.true_and]
    cases followed : c.follow r a.path with
    | none => rfl
    | some owner =>
      cases named : a.field with
      | none => rfl
      | some field =>
        dsimp only
        cases stored : owner.attribute? field with
        | some kept => simp [Resolution.ofOption, Resolution.wrap, stored]
        | none =>
          cases derived : owner.calculation? field with
          | some computed => simp [Resolution.ofOption, Resolution.wrap, stored, derived]
          | none =>
            cases present : owner.aggregate? field with
            | none => simp [Resolution.ofOption, Resolution.wrap, stored, derived]
            | some summary =>
              have kind : a.kind ∉ [AggregateKind.count, .exists, .avg] := by
                simpa using ⟨counts, tells, averages⟩
              exact absurd ⟨untyped, kind, followed, field, named, stored, derived, present⟩
                (alone (owner, summary))

theorem resolve_alone_ne (alone : ∀ y, ¬ c.SumsUp (r, a) y) (n : Nat) :
    c.resolveAggregate n r a ≠ .unfinished := by
  rw [resolve_alone alone]
  cases c.baseType? (r, a) <;> nofun

/-- An aggregate whose type is not found in so many steps is the first of a chain of as many
aggregates, and one more. -/
theorem chain_of_unfinished {n : Nat} (h : c.resolveAggregate n r a = .unfinished) :
    ∃ chain : List (Resource × Aggregate), chain.length = n + 1 ∧
      ((r, a) :: chain).IsChain c.SumsUp := by
  induction n generalizing r a with
  | zero =>
    by_cases sums : ∃ y, c.SumsUp (r, a) y
    · obtain ⟨y, sums⟩ := sums
      exact ⟨[y], rfl, by simpa using sums⟩
    · exact absurd h (resolve_alone_ne (not_exists.1 sums) 0)
  | succ n ih =>
    by_cases sums : ∃ y, c.SumsUp (r, a) y
    · obtain ⟨y, sums⟩ := sums
      rw [sums.resolve, resolveThrough, Resolution.wrap_eq_unfinished] at h
      obtain ⟨chain, length, linked⟩ := ih h
      exact ⟨y :: chain, by rw [List.length_cons, length], linked.cons_cons sums⟩
    · exact absurd h (resolve_alone_ne (not_exists.1 sums) (n + 1))

theorem chain_mem {chain : List (Resource × Aggregate)} (linked : (x :: chain).IsChain c.SumsUp)
    (listed : x ∈ c.aggregates) : x :: chain ⊆ c.aggregates := by
  induction chain generalizing x with
  | nil => simpa using listed
  | cons y rest ih =>
    obtain ⟨sums, onward⟩ := List.isChain_cons_cons.1 linked
    exact List.cons_subset.2 ⟨listed, ih onward (sums.mem (mem_aggregates.1 listed).1)⟩

theorem SummariesEnd.nodup (once : c.SummariesEnd) {chain : List (Resource × Aggregate)}
    (linked : chain.IsChain c.SumsUp) (listed : chain ⊆ c.aggregates) : chain.Nodup := by
  apply nodup_chain linked
  intro x member
  obtain ⟨resource, declared⟩ := mem_aggregates.1 (listed member)
  exact once x.1 resource x.2 declared

theorem SummariesEnd.finished (once : c.SummariesEnd) (listed : r ∈ c.resources)
    (declared : a ∈ r.publicAggregates) {n : Nat} (enough : c.aggregateCount ≤ n) :
    c.resolveAggregate n r a ≠ .unfinished := by
  intro unfinished
  obtain ⟨chain, length, linked⟩ := chain_of_unfinished unfinished
  have within := chain_mem linked (mem_aggregates.2 ⟨listed, declared⟩)
  have short := (List.subperm_of_subset (once.nodup linked within) within).length_le
  rw [List.length_cons, length, length_aggregates] at short
  omega

end FieldPlan.Catalog
