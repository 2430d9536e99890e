import FieldPlan.Descent.Locality
import FieldPlan.Schema.Reach
import Mathlib.Data.List.Perm.Subperm
import Mathlib.Data.List.TakeWhile

/-! Which resources get definitions. The queue holds names of exposed resources only, so only
these are found; and whatever a found one refers to is found or in the queue, so in the end
nothing is left out. -/
namespace FieldPlan
namespace Schema

/-- The resource is exposed, and the catalog's of its name. -/
def Reached (c : Catalog) (e : Exposure) (r : Resource) : Prop :=
  admits c e r.name = true ∧ c.resource? r.name = some r

variable {c : Catalog} {e : Exposure}

theorem admittedRoots_ok {roots names : List String} : admittedRoots c e roots = .ok names ↔
    (∀ root ∈ roots, c.hasResource root = true) ∧ names = roots.filter (admits c e) := by
  induction roots generalizing names with
  | nil =>
    rw [admittedRoots, Except.ok.injEq]
    constructor
    · rintro rfl
      exact ⟨fun _ absent => absurd absent List.not_mem_nil, rfl⟩
    · exact fun start => start.2.symm
  | cons root rest ih =>
    rw [admittedRoots, List.forall_mem_cons]
    split
    · next present =>
      rw [List.filter_cons]
      constructor
      · intro h
        obtain ⟨others, read, rfl⟩ := Outcome.map_ok h
        obtain ⟨there, rfl⟩ := ih.1 read
        exact ⟨⟨present, there⟩, rfl⟩
      · rintro ⟨⟨-, there⟩, rfl⟩
        rw [ih.2 ⟨there, rfl⟩]
        rfl
    · next absent => exact iff_of_false nofun fun there => absent there.1.1

theorem mem_admittedRoots {roots names : List String} (h : admittedRoots c e roots = .ok names)
    {name : String} : name ∈ names ↔ name ∈ roots ∧ admits c e name = true := by
  rw [(admittedRoots_ok.1 h).2, List.mem_filter]

/-! ### References -/

theorem typesResources_append (first others : List TypeRef) :
    typesResources c (first ++ others) =
      (do return (← typesResources c first) ++ (← typesResources c others)) := by
  induction first with
  | nil =>
    rw [List.nil_append, typesResources]
    cases typesResources c others <;> rfl
  | cons t rest ih =>
    simp only [List.cons_append, typesResources, ih, bind_assoc, pure_bind, List.append_assoc]

theorem summaryResources_ok {r : Resource} {summaries : List Aggregate} {names : List String} :
    summaryResources c r summaries = .ok names ↔
      typesResources c (summaries.filterMap (c.aggregateType? r)) = .ok names ∧
        ∀ a ∈ summaries, c.aggregateType r a ≠ .unfinished := by
  induction summaries generalizing names with
  | nil => simp [summaryResources, typesResources]
  | cons a rest ih =>
    rw [summaryResources, List.filterMap_cons, Catalog.aggregateType?, List.forall_mem_cons]
    cases typed : c.aggregateType r a with
    | unfinished => simp [crash]
    | missing => simpa [Catalog.Resolution.type?] using ih
    | found t =>
      simp only [Catalog.Resolution.type?, typesResources, ne_eq, reduceCtorEq, not_false_eq_true,
        true_and]
      constructor
      · intro h
        obtain ⟨here, first, h⟩ := Outcome.bind_ok h
        obtain ⟨later, others, h⟩ := Outcome.bind_ok h
        cases h
        obtain ⟨listed, finished⟩ := ih.1 others
        rw [first, listed]
        exact ⟨rfl, finished⟩
      · rintro ⟨h, finished⟩
        obtain ⟨here, first, h⟩ := Outcome.bind_ok h
        obtain ⟨later, others, h⟩ := Outcome.bind_ok h
        cases h
        rw [first, ih.2 ⟨others, finished⟩]
        rfl

theorem references_ok {r : Resource} {names : List String} : references c e r = .ok names ↔
    (∀ a ∈ r.publicAggregates, c.aggregateType r a ≠ .unfinished) ∧
      ∃ held, typesResources c (c.fieldTypes r) = .ok held ∧
        names = (r.publicRelationships.map Relationship.destination ++ held).filter
          (admits c e) := by
  rw [Catalog.fieldTypes, typesResources_append, typesResources_append]
  constructor
  · intro h
    obtain ⟨stored, first, h⟩ := Outcome.bind_ok h
    obtain ⟨derived, second, h⟩ := Outcome.bind_ok h
    obtain ⟨summed, third, h⟩ := Outcome.bind_ok h
    cases h
    obtain ⟨third, finished⟩ := summaryResources_ok.1 third
    rw [first, second, third]
    exact ⟨finished, _, rfl, by simp⟩
  · rintro ⟨finished, held, h, rfl⟩
    obtain ⟨fields, h', h⟩ := Outcome.bind_ok h
    obtain ⟨stored, first, h'⟩ := Outcome.bind_ok h'
    obtain ⟨derived, second, h'⟩ := Outcome.bind_ok h'
    obtain ⟨summed, third, h⟩ := Outcome.bind_ok h
    cases h
    cases h'
    rw [references, first, second, summaryResources_ok.2 ⟨third, finished⟩]
    simp [bind, Except.bind, pure, Except.pure]

theorem references_admitted {r : Resource} {names : List String} (h : references c e r = .ok names) :
    ∀ name ∈ names, admits c e name = true := by
  obtain ⟨-, held, -, rfl⟩ := references_ok.1 h
  intro name member
  exact (List.mem_filter.1 member).2

variable {queue : List String} {found : List Resource}

/-! ### Runs of the search -/

def unfound (queue : List String) (found : List Resource) : List String :=
  queue.dropWhile fun name => found.any (·.name == name)

theorem mem_unfound {name : String} (h : name ∈ queue) :
    name ∈ unfound queue found ∨ name ∈ found.map Resource.name := by
  rw [← List.takeWhile_append_dropWhile (p := fun name => found.any (·.name == name)) (l := queue),
    List.mem_append] at h
  rcases h with skipped | left
  · have seen := List.mem_takeWhile_imp skipped
    obtain ⟨r, member, same⟩ := List.any_eq_true.1 seen
    rw [← eq_of_beq same]
    exact Or.inr (List.mem_map_of_mem member)
  · exact Or.inl left

theorem head_unfound {name : String} {rest : List String}
    (h : unfound queue found = name :: rest) : name ∉ found.map Resource.name := by
  have first := List.head?_dropWhile_not (fun name => found.any (·.name == name)) queue
  rw [← unfound, h] at first
  intro member
  obtain ⟨r, inFound, rfl⟩ := List.mem_map.1 member
  have seen : found.any (·.name == r.name) = true :=
    List.any_eq_true.2 ⟨r, inFound, beq_self_eq_true _⟩
  rw [List.head?_cons] at first
  exact Bool.false_ne_true (first.symm.trans seen)

theorem unfound_subset {name : String} {rest : List String}
    (h : unfound queue found = name :: rest) : ∀ n ∈ name :: rest, n ∈ queue := by
  rw [← h]
  exact (List.dropWhile_sublist _).subset

/-- A run keeps what one step keeps. Each step finds a resource, and the run ends when all that is
queued is found or when its steps are used up. -/
theorem reachFrom_keeps {motive : List String → List Resource → Prop} {fuel : Nat}
    {reached : List Resource} (step : ∀ {queue found name rest r refs}, motive queue found →
      unfound queue found = name :: rest → c.resource? name = some r →
      references c e r = .ok refs → motive (rest ++ refs) (found ++ [r]))
    (start : motive queue found) (run : reachFrom c e fuel queue found = .ok reached) :
    ∃ last, motive last reached ∧
      (unfound last reached = [] ∨ reached.length = found.length + fuel) := by
  induction fuel generalizing queue found with
  | zero =>
    cases run
    exact ⟨queue, start, Or.inr rfl⟩
  | succ fuel ih =>
    rw [reachFrom] at run
    split at run
    · next nothing =>
      cases run
      exact ⟨queue, start, Or.inl nothing⟩
    · next name rest left =>
      split at run
      · cases run
      · next r present =>
        obtain ⟨refs, referred, run⟩ := Outcome.bind_ok run
        have next := step start left present referred
        obtain ⟨last, held, ended⟩ := ih next run
        refine ⟨last, held, ended.imp_right fun length => ?_⟩
        rw [length, List.length_append, List.length_singleton]
        omega

/-! ### Only exposed resources are found -/

theorem reachFrom_reached {fuel : Nat} {reached : List Resource}
    (queued : ∀ name ∈ queue, admits c e name = true) (sofar : ∀ r ∈ found, Reached c e r)
    (run : reachFrom c e fuel queue found = .ok reached) : ∀ r ∈ reached, Reached c e r := by
  have kept := reachFrom_keeps (motive := fun queue found =>
    (∀ name ∈ queue, admits c e name = true) ∧ ∀ r ∈ found, Reached c e r) ?_ ⟨queued, sofar⟩ run
  · obtain ⟨-, ⟨-, all⟩, -⟩ := kept
    exact all
  · intro queue found name rest r refs before left present referred
    obtain ⟨queued, sofar⟩ := before
    have named : r.name = name := Catalog.resource?_name present
    have shown := queued name (unfound_subset left name List.mem_cons_self)
    have here : Reached c e r := ⟨named ▸ shown, named ▸ present⟩
    constructor
    · intro n member
      rcases List.mem_append.1 member with old | new
      · exact queued n (unfound_subset left n (List.mem_cons_of_mem _ old))
      · exact references_admitted referred n new
    · intro other member
      rcases List.mem_append.1 member with old | new
      · exact sofar other old
      · rw [List.mem_singleton.1 new]
        exact here

theorem reachable_reached {roots : List String} {reached : List Resource}
    (h : reachable c e roots = .ok reached) : ∀ r ∈ reached, Reached c e r := by
  obtain ⟨names, admitted, h⟩ := Outcome.bind_ok h
  refine reachFrom_reached (fun name member => ((mem_admittedRoots admitted).1 member).2) ?_ h
  intro r absent
  exact absurd absent List.not_mem_nil

/-! ### Nothing is left out -/

/-- The names of what is found are all different, and whatever one of them refers to is found
or in the queue. -/
structure Searched (c : Catalog) (e : Exposure) (queue : List String) (found : List Resource) :
    Prop where
  present : ∀ r ∈ found, c.resource? r.name = some r
  nodup : (found.map Resource.name).Nodup
  covered : ∀ r ∈ found, ∃ refs, references c e r = .ok refs ∧
    ∀ name ∈ refs, name ∈ queue ∨ name ∈ found.map Resource.name

theorem Searched.length_le (h : Searched c e queue found) : found.length ≤ c.resources.length := by
  have within : found.map Resource.name ⊆ c.resources.map Resource.name := by
    intro name member
    obtain ⟨r, inFound, rfl⟩ := List.mem_map.1 member
    exact List.mem_map_of_mem (List.mem_of_find?_eq_some (h.present r inFound))
  simpa using (List.subperm_of_subset h.nodup within).length_le

section
variable {name : String} {rest refs : List String} {r : Resource}
variable (left : unfound queue found = name :: rest) (present : c.resource? name = some r)
include left present

theorem known_step {n : String} (known : n ∈ queue ∨ n ∈ found.map Resource.name) :
    n ∈ rest ++ refs ∨ n ∈ (found ++ [r]).map Resource.name := by
  rw [List.map_append, List.mem_append, List.mem_append]
  rcases known.elim mem_unfound Or.inr with waiting | old
  · rw [left] at waiting
    rcases List.mem_cons.1 waiting with rfl | later
    · exact Or.inr (Or.inr (List.mem_singleton.2 (Catalog.resource?_name present).symm))
    · exact Or.inl (Or.inl later)
  · exact Or.inr (Or.inl old)

theorem Searched.step (h : Searched c e queue found) (referred : references c e r = .ok refs) :
    Searched c e (rest ++ refs) (found ++ [r]) := by
  have named := Catalog.resource?_name present
  constructor
  · intro other member
    rcases List.mem_append.1 member with old | new
    · exact h.present other old
    · rw [List.mem_singleton.1 new, named]
      exact present
  · rw [List.map_append, List.nodup_append]
    refine ⟨h.nodup, List.nodup_cons.2 ⟨List.not_mem_nil, List.nodup_nil⟩, ?_⟩
    intro n old other new same
    rw [same, List.mem_singleton.1 new, named] at old
    exact head_unfound left old
  · intro other member
    rcases List.mem_append.1 member with old | new
    · obtain ⟨refs', same, known⟩ := h.covered other old
      exact ⟨refs', same, fun n inRefs => known_step left present (known n inRefs)⟩
    · rw [List.mem_singleton.1 new]
      exact ⟨refs, referred, fun n inRefs => Or.inl (List.mem_append_right _ inRefs)⟩

end

theorem Searched.finish (h : Searched c e queue found) (nothing : unfound queue found = []) :
    Searched c e [] found ∧ ∀ name, name ∈ queue ∨ name ∈ found.map Resource.name →
      name ∈ found.map Resource.name := by
  have all : ∀ name, name ∈ queue ∨ name ∈ found.map Resource.name →
      name ∈ found.map Resource.name := by
    intro name known
    rcases known.elim mem_unfound Or.inr with waiting | old
    · rw [nothing] at waiting
      exact absurd waiting List.not_mem_nil
    · exact old
  refine ⟨⟨h.present, h.nodup, ?_⟩, all⟩
  intro r member
  obtain ⟨refs, same, known⟩ := h.covered r member
  exact ⟨refs, same, fun name inRefs => Or.inr (all name (known name inRefs))⟩

/-- With more steps than there are resources left to find, the queue comes to its end. -/
theorem reachFrom_searched {fuel : Nat} {reached : List Resource}
    (h : Searched c e queue found) (enough : c.resources.length < found.length + fuel)
    (run : reachFrom c e fuel queue found = .ok reached) :
    Searched c e [] reached ∧ ∀ name, name ∈ queue ∨ name ∈ found.map Resource.name →
      name ∈ reached.map Resource.name := by
  have kept := reachFrom_keeps (motive := fun queue' found' => Searched c e queue' found' ∧
    ∀ name, name ∈ queue ∨ name ∈ found.map Resource.name →
      name ∈ queue' ∨ name ∈ found'.map Resource.name) ?_ ⟨h, fun _ known => known⟩ run
  · obtain ⟨last, ⟨searched, known⟩, nothing | length⟩ := kept
    · obtain ⟨ended, all⟩ := searched.finish nothing
      exact ⟨ended, fun name waiting => all name (known name waiting)⟩
    · have := searched.length_le
      omega
  · intro queue' found' name rest r refs before left present referred
    obtain ⟨searched, known⟩ := before
    exact ⟨searched.step left present referred,
      fun n waiting => known_step left present (known n waiting)⟩

/-- Every exposed root is found, and whatever a found resource refers to. -/
theorem reachable_searched {roots : List String} {reached : List Resource}
    (h : reachable c e roots = .ok reached) :
    Searched c e [] reached ∧ ∀ name ∈ roots, admits c e name = true →
      name ∈ reached.map Resource.name := by
  obtain ⟨names, admitted, run⟩ := Outcome.bind_ok h
  have start : Searched c e names [] :=
    ⟨fun _ absent => absurd absent List.not_mem_nil, List.nodup_nil,
      fun _ absent => absurd absent List.not_mem_nil⟩
  obtain ⟨searched, all⟩ := reachFrom_searched start (by simp) run
  refine ⟨searched, ?_⟩
  intro name member shown
  exact all name (Or.inl ((mem_admittedRoots admitted).2 ⟨member, shown⟩))

end Schema
end FieldPlan
