import FieldPlan.Proofs.Occurrence
import FieldPlan.Proofs.Schema.Followed
import Mathlib.Data.List.Nodup
import Mathlib.Order.Bounds.Basic

/-! The search for resources goes level by level. While the names at one distance from the roots
are worked off at the front of the queue, those one step further gather behind them; so what is
found comes in the order of its distance, and in the end it is all that the roots lead to. -/
namespace FieldPlan

/-- The resource has a link to the named one, or a field whose type has it somewhere in it. -/
inductive Resource.RefersTo (c : Catalog) (r : Resource) : String → Prop
  | link {link : Relationship} : link ∈ r.publicRelationships → RefersTo c r link.destination
  | field {t : TypeRef} {name : String} : t ∈ c.fieldTypes r → c.Enters t name → RefersTo c r name

namespace Schema

/-- The names hold the exposed roots and, with a resource, the exposed ones that it refers to. -/
structure Spread (c : Catalog) (e : Exposure) (roots : List String) (names : Set String) :
    Prop where
  root : ∀ name ∈ roots, admits c e name = true → name ∈ names
  next : ∀ r : Resource, r.name ∈ names → c.resource? r.name = some r →
    ∀ name, r.RefersTo c name → admits c e name = true → name ∈ names

/-- The name is come to from an exposed root in that many steps, each to an exposed resource. -/
inductive Steps (c : Catalog) (e : Exposure) (roots : List String) : Nat → String → Prop
  | root {name : String} : name ∈ roots → admits c e name = true → Steps c e roots 0 name
  | next {n : Nat} {r : Resource} {name : String} : Steps c e roots n r.name →
      c.resource? r.name = some r → r.RefersTo c name → admits c e name = true →
      Steps c e roots (n + 1) name

def Distance (c : Catalog) (e : Exposure) (roots : List String) (n : Nat) (name : String) : Prop :=
  IsLeast {k | Steps c e roots k name} n

/-- Every resource has a distance, and along the list the distances never decrease. -/
structure Ordered (c : Catalog) (e : Exposure) (roots : List String) (found : List Resource) :
    Prop where
  distance : ∀ r ∈ found, ∃ n, Distance c e roots n r.name
  sorted : found.Pairwise fun r s =>
    ∀ m n, Distance c e roots m r.name → Distance c e roots n s.name → m ≤ n

/-- Every resource is a root, or one before it refers to it. -/
def Led (c : Catalog) (roots : List String) (found : List Resource) : Prop :=
  ∀ before r after, found = before ++ r :: after →
    r.name ∈ roots ∨ ∃ earlier ∈ before, earlier.RefersTo c r.name

variable {c : Catalog} {e : Exposure} {roots roots' : List String} {n : Nat} {name : String}

theorem references_iff {r : Resource} {refs : List String} (h : references c e r = .ok refs) :
    name ∈ refs ↔ r.RefersTo c name ∧ admits c e name = true := by
  rw [mem_references h]
  refine and_congr_left fun _ => ⟨?_, ?_⟩
  · intro named
    rcases named with link | ⟨t, field, mention⟩
    · obtain ⟨link, listed, rfl⟩ := List.mem_map.1 link
      exact .link listed
    · rw [Catalog.mem_mentions_resource, Catalog.mem_mentions_instance] at mention
      exact .field field (Catalog.enters_iff.2 mention)
  · intro refers
    cases refers with
    | link listed => exact Or.inl (List.mem_map_of_mem listed)
    | field field entered =>
      have mention := Catalog.enters_iff.1 entered
      rw [← Catalog.mem_mentions_resource, ← Catalog.mem_mentions_instance] at mention
      exact Or.inr ⟨_, field, mention⟩

/-! ### Steps -/

theorem Steps.mem {names : Set String} (h : Steps c e roots n name)
    (spread : Spread c e roots names) : name ∈ names := by
  induction h with
  | root listed shown => exact spread.root _ listed shown
  | next _ present refers shown ih => exact spread.next _ ih present _ refers shown

theorem Steps.mono (h : Steps c e roots n name) (within : roots ⊆ roots') :
    Steps c e roots' n name := by
  induction h with
  | root listed shown => exact .root (within listed) shown
  | next _ present refers shown ih => exact .next ih present refers shown

variable {queue : List String} {found : List Resource} {r : Resource}

/-- What a found resource refers to is found or in the queue. -/
theorem Searched.known (h : Searched c e queue found) (member : r.name ∈ found.map Resource.name)
    (present : c.resource? r.name = some r) (refers : r.RefersTo c name)
    (shown : admits c e name = true) : name ∈ queue ∨ name ∈ found.map Resource.name := by
  obtain ⟨own, inFound, same⟩ := List.mem_map.1 member
  have one : own = r := by
    have known := h.present own inFound
    rw [same, present] at known
    exact (Option.some.inj known).symm
  obtain ⟨refs, referred, known⟩ := h.covered own inFound
  rw [one] at referred
  exact known name ((references_iff referred).2 ⟨refers, shown⟩)

/-- With nothing left in the queue, what is found holds whatever it refers to. -/
theorem Searched.spread (h : Searched c e [] found)
    (all : ∀ name ∈ roots, admits c e name = true → name ∈ found.map Resource.name) :
    Spread c e roots {name | name ∈ found.map Resource.name} where
  root := all
  next := by
    intro r member present name refers shown
    exact (h.known member present refers shown).resolve_left List.not_mem_nil

/-! ### One distance after the other -/

/-- The names in front are at the distance, and those behind them at most one step further. What
is nearer is found, and what is at the distance is found or in front. -/
structure Layered (c : Catalog) (e : Exposure) (roots : List String) (n : Nat)
    (front back : List String) (found : List Resource) : Prop where
  ahead : ∀ name ∈ front, Steps c e roots n name
  behind : ∀ name ∈ back, Steps c e roots (n + 1) name
  nearer : ∀ k < n, ∀ name, Steps c e roots k name → name ∈ found.map Resource.name
  here : ∀ name, Steps c e roots n name → name ∈ front ∨ name ∈ found.map Resource.name
  ordered : Ordered c e roots found
  reached : ∀ r ∈ found, ∃ k ≤ n, Steps c e roots k r.name

variable {front back rest refs : List String}

theorem Layered.distance (h : Layered c e roots n front back found)
    (left : unfound front found = name :: rest) : Distance c e roots n name := by
  refine ⟨h.ahead name (unfound_subset left name List.mem_cons_self), ?_⟩
  intro k steps
  by_contra shorter
  exact head_unfound left (h.nearer k (Nat.lt_of_not_le shorter) name steps)

/-- The first unfound name in front is found, and what it refers to comes last. -/
theorem Layered.step (h : Layered c e roots n front back found)
    (left : unfound front found = name :: rest) (present : c.resource? name = some r)
    (referred : references c e r = .ok refs) :
    Layered c e roots n rest (back ++ refs) (found ++ [r]) := by
  have distance := h.distance left
  have named : r.name = name := Catalog.resource?_name present
  constructor
  · intro other member
    exact h.ahead other (unfound_subset left other (List.mem_cons_of_mem _ member))
  · intro other member
    rcases List.mem_append.1 member with old | new
    · exact h.behind other old
    · obtain ⟨refers, shown⟩ := (references_iff referred).1 new
      have start : Steps c e roots n r.name := named ▸ distance.1
      exact .next start (named ▸ present) refers shown
  · intro k less other steps
    rw [List.map_append]
    exact List.mem_append_left _ (h.nearer k less other steps)
  · intro other steps
    have known : other ∈ rest ++ [] ∨ other ∈ (found ++ [r]).map Resource.name :=
      known_step left present (h.here other steps)
    rwa [List.append_nil] at known
  · refine ⟨?_, List.pairwise_append.2 ⟨h.ordered.sorted, List.pairwise_singleton _ _, ?_⟩⟩
    · intro other member
      rcases List.mem_append.1 member with old | new
      · exact h.ordered.distance other old
      · rw [List.mem_singleton.1 new, named]
        exact ⟨n, distance⟩
    · intro other old last only k m first second
      rw [List.mem_singleton.1 only, named] at second
      obtain ⟨most, bounded, steps⟩ := h.reached other old
      have least : k ≤ most := first.2 steps
      have same : m = n := second.unique distance
      omega
  · intro other member
    rcases List.mem_append.1 member with old | new
    · exact h.reached other old
    · rw [List.mem_singleton.1 new, named]
      exact ⟨n, Nat.le_refl n, distance.1⟩

/-- When the front is worked off, the names behind it are those at the next distance. -/
theorem Layered.advance (h : Layered c e roots n front back found)
    (searched : Searched c e (front ++ back) found) (nothing : unfound front found = []) :
    Layered c e roots (n + 1) back [] found := by
  have seen : ∀ name ∈ front, name ∈ found.map Resource.name := by
    intro name member
    have known : name ∈ unfound front found ∨ name ∈ found.map Resource.name := mem_unfound member
    rw [nothing] at known
    exact known.resolve_left List.not_mem_nil
  have done : ∀ name, Steps c e roots n name → name ∈ found.map Resource.name := by
    intro name steps
    exact (h.here name steps).elim (seen name) id
  constructor
  · exact h.behind
  · exact fun name absent => absurd absent List.not_mem_nil
  · intro k less name steps
    rcases Nat.lt_succ_iff_lt_or_eq.1 less with nearer | rfl
    · exact h.nearer k nearer name steps
    · exact done name steps
  · intro name steps
    cases steps with
    | @next _ r _ before present refers shown =>
      rcases searched.known (done r.name before) present refers shown with queued | old
      · exact (List.mem_append.1 queued).elim (fun early => Or.inr (seen name early)) Or.inl
      · exact Or.inr old
  · exact h.ordered
  · intro r member
    obtain ⟨k, bounded, steps⟩ := h.reached r member
    exact ⟨k, Nat.le_succ_of_le bounded, steps⟩

/-- The first unfound name is in front, if need be after the front has been worked off. -/
theorem Layered.turn (h : Layered c e roots n front back found)
    (searched : Searched c e (front ++ back) found)
    (left : unfound (front ++ back) found = name :: rest) :
    ∃ m front' back' later, Layered c e roots m front' back' found ∧
      unfound front' found = name :: later ∧ rest = later ++ back' := by
  rw [unfound, List.dropWhile_append] at left
  cases ahead : unfound front found with
  | nil =>
    have next := h.advance searched ahead
    rw [← unfound, ahead] at left
    exact ⟨n + 1, back, [], rest, next, left, (List.append_nil rest).symm⟩
  | cons first later =>
    rw [← unfound, ahead] at left
    obtain ⟨rfl, rfl⟩ := List.cons.inj left
    exact ⟨n, front, back, later, h, ahead, rfl⟩

theorem reachFrom_ordered {fuel : Nat} {reached : List Resource}
    (h : Layered c e roots n front back found) (searched : Searched c e (front ++ back) found)
    (run : reachFrom c e fuel (front ++ back) found = .ok reached) :
    Ordered c e roots reached := by
  have kept := reachFrom_keeps (motive := fun queue found => Searched c e queue found ∧
    ∃ n front back, queue = front ++ back ∧ Layered c e roots n front back found) ?_
    ⟨searched, n, front, back, rfl, h⟩ run
  · obtain ⟨-, ⟨-, n, front, back, -, layered⟩, -⟩ := kept
    exact layered.ordered
  · intro queue found name rest r refs before left present referred
    obtain ⟨searched, n, front, back, rfl, layered⟩ := before
    obtain ⟨m, front', back', later, turned, ahead, rfl⟩ := layered.turn searched left
    have next := turned.step ahead present referred
    refine ⟨searched.step left present referred, m, later, back' ++ refs, ?_, next⟩
    exact List.append_assoc later back' refs

/-! ### Every resource is led to -/

theorem Led.concat (h : Led c roots found)
    (next : r.name ∈ roots ∨ ∃ earlier ∈ found, earlier.RefersTo c r.name) :
    Led c roots (found ++ [r]) := by
  intro before last after same
  rcases List.eq_nil_or_concat after with rfl | ⟨others, final, rfl⟩
  · obtain ⟨rfl, only⟩ := List.append_inj' same rfl
    obtain ⟨rfl, -⟩ := List.cons.inj only
    exact next
  · rw [List.concat_eq_append, ← List.cons_append, ← List.append_assoc] at same
    obtain ⟨early, -⟩ := List.append_inj' same rfl
    exact h before last others early

theorem reachFrom_led {fuel : Nat} {reached : List Resource}
    (queued : ∀ name ∈ queue, name ∈ roots ∨ ∃ earlier ∈ found, earlier.RefersTo c name)
    (sofar : Led c roots found) (run : reachFrom c e fuel queue found = .ok reached) :
    Led c roots reached := by
  have kept := reachFrom_keeps (motive := fun queue found => Led c roots found ∧
    ∀ name ∈ queue, name ∈ roots ∨ ∃ earlier ∈ found, earlier.RefersTo c name) ?_
    ⟨sofar, queued⟩ run
  · obtain ⟨-, ⟨led, -⟩, -⟩ := kept
    exact led
  · intro queue found name rest r refs before left present referred
    obtain ⟨sofar, queued⟩ := before
    have named : r.name = name := Catalog.resource?_name present
    have here := queued name (unfound_subset left name List.mem_cons_self)
    rw [← named] at here
    refine ⟨sofar.concat here, ?_⟩
    intro n member
    rcases List.mem_append.1 member with old | new
    · have known := queued n (unfound_subset left n (List.mem_cons_of_mem _ old))
      refine known.imp_right fun ⟨earlier, inFound, refers⟩ => ?_
      exact ⟨earlier, List.mem_append_left _ inFound, refers⟩
    · have refers := ((references_iff referred).1 new).1
      exact Or.inr ⟨r, List.mem_append_right _ (List.mem_singleton_self r), refers⟩

/-! ### When the search returns -/

/-- Every name that the roots lead to is a resource whose references can be collected. -/
def Collects (c : Catalog) (e : Exposure) (roots : List String) : Prop :=
  ∀ n name, Steps c e roots n name →
    ∃ r refs, c.resource? name = some r ∧ references c e r = .ok refs

theorem reachFrom_isOk {fuel : Nat} (collects : Collects c e roots)
    (queued : ∀ name ∈ queue, ∃ n, Steps c e roots n name) :
    ∃ reached, reachFrom c e fuel queue found = .ok reached := by
  induction fuel generalizing queue found with
  | zero => exact ⟨found, rfl⟩
  | succ fuel ih =>
    rw [reachFrom]
    split
    · exact ⟨found, rfl⟩
    · next name rest left =>
      have inQueue : ∀ other ∈ name :: rest, other ∈ queue := unfound_subset left
      obtain ⟨n, steps⟩ := queued name (inQueue name List.mem_cons_self)
      obtain ⟨r, refs, present, referred⟩ := collects n name steps
      have named : r.name = name := Catalog.resource?_name present
      have following : ∃ reached, reachFrom c e fuel (rest ++ refs) (found ++ [r]) = .ok reached := by
        apply ih
        intro other member
        rcases List.mem_append.1 member with old | new
        · exact queued other (inQueue other (List.mem_cons_of_mem _ old))
        · obtain ⟨refers, shown⟩ := (references_iff referred).1 new
          have start : Steps c e roots n r.name := named ▸ steps
          exact ⟨n + 1, .next start (named ▸ present) refers shown⟩
      obtain ⟨reached, run⟩ := following
      refine ⟨reached, ?_⟩
      rw [present]
      change (references c e r >>= _) = _
      rw [referred]
      exact run

theorem admittedRoots_steps {names : List String} (h : admittedRoots c e roots = .ok names) :
    ∀ name ∈ names, Steps c e roots 0 name := by
  intro name member
  obtain ⟨listed, shown⟩ := (mem_admittedRoots h).1 member
  exact .root listed shown

theorem reachable_isOk : (∃ reached, reachable c e roots = .ok reached) ↔
    (∀ root ∈ roots, c.hasResource root = true) ∧ Collects c e roots := by
  constructor
  · rintro ⟨reached, h⟩
    obtain ⟨searched, all⟩ := reachable_searched h
    obtain ⟨names, admitted, -⟩ := Outcome.bind_ok h
    refine ⟨(admittedRoots_ok.1 admitted).1, ?_⟩
    intro n name steps
    obtain ⟨r, found, same⟩ := List.mem_map.1 (steps.mem (searched.spread all))
    obtain ⟨refs, referred, -⟩ := searched.covered r found
    exact ⟨r, refs, same ▸ searched.present r found, referred⟩
  · rintro ⟨present, collects⟩
    have admitted : admittedRoots c e roots = .ok (roots.filter (admits c e)) :=
      admittedRoots_ok.2 ⟨present, rfl⟩
    have started : ∀ name ∈ roots.filter (admits c e), ∃ n, Steps c e roots n name :=
      fun name member => ⟨0, admittedRoots_steps admitted name member⟩
    rw [reachable, admitted]
    exact reachFrom_isOk collects started

/-! ### What the search returns -/

theorem reachable_ordered {reached : List Resource} (h : reachable c e roots = .ok reached) :
    Ordered c e roots reached := by
  obtain ⟨names, admitted, run⟩ := Outcome.bind_ok h
  have start : Layered c e roots 0 names [] [] := by
    refine ⟨admittedRoots_steps admitted, nofun, nofun, ?_, ⟨nofun, .nil⟩, nofun⟩
    intro name steps
    cases steps with
    | root listed shown => exact Or.inl ((mem_admittedRoots admitted).2 ⟨listed, shown⟩)
  have nothing : Searched c e (names ++ []) [] := ⟨nofun, List.nodup_nil, nofun⟩
  rw [← List.append_nil names] at run
  exact reachFrom_ordered start nothing run

theorem reachable_led {reached : List Resource} (h : reachable c e roots = .ok reached) :
    Led c roots reached := by
  obtain ⟨names, admitted, run⟩ := Outcome.bind_ok h
  have start : Led c roots [] := by
    intro before r after same
    cases before <;> cases same
  exact reachFrom_led (fun name member => Or.inl ((mem_admittedRoots admitted).1 member).1) start run

theorem mem_reachable {reached : List Resource} (h : reachable c e roots = .ok reached) :
    r ∈ reached ↔ c.resource? r.name = some r ∧ ∃ n, Steps c e roots n r.name := by
  obtain ⟨searched, all⟩ := reachable_searched h
  constructor
  · intro found
    obtain ⟨n, distance⟩ := (reachable_ordered h).distance r found
    exact ⟨searched.present r found, n, distance.1⟩
  · rintro ⟨present, n, steps⟩
    obtain ⟨own, found, same⟩ := List.mem_map.1 (steps.mem (searched.spread all))
    have known := searched.present own found
    rw [same, present] at known
    rw [Option.some.inj known]
    exact found

/-- The search is exact. When it returns, no resource is found twice, and what is found is the
least set with the exposed roots and whatever a member of it refers to. The nearest come first, and
every resource but the roots comes after one that refers to it. It returns just if all that the
roots lead to is there, and finds the same from the same roots in any order. -/
theorem reachable_exact {reached : List Resource} (h : reachable c e roots = .ok reached) :
    (reached.map Resource.name).Nodup ∧ (∀ r ∈ reached, c.resource? r.name = some r) ∧
    IsLeast {names | Spread c e roots names} {name | name ∈ reached.map Resource.name} ∧
    Ordered c e roots reached ∧ Led c roots reached ∧
    ∀ roots', (∀ root, root ∈ roots' ↔ root ∈ roots) →
      ∃ reached', reachable c e roots' = .ok reached' ∧ reached'.Perm reached := by
  obtain ⟨searched, all⟩ := reachable_searched h
  have ordered := reachable_ordered h
  refine ⟨searched.nodup, searched.present, ⟨searched.spread all, ?_⟩, ordered, reachable_led h, ?_⟩
  · intro names spread name member
    obtain ⟨r, found, rfl⟩ := List.mem_map.1 member
    obtain ⟨n, distance⟩ := ordered.distance r found
    exact distance.1.mem spread
  · intro roots' same
    have steps (n : Nat) (name : String) : Steps c e roots' n name ↔ Steps c e roots n name :=
      ⟨fun way => way.mono fun root => (same root).1, fun way => way.mono fun root => (same root).2⟩
    obtain ⟨present, collects⟩ := reachable_isOk.1 ⟨reached, h⟩
    have returns : ∃ reached', reachable c e roots' = .ok reached' := by
      refine reachable_isOk.2 ⟨fun root listed => present root ((same root).1 listed), ?_⟩
      exact fun n name way => collects n name ((steps n name).1 way)
    obtain ⟨reached', h'⟩ := returns
    have distinct : reached.Nodup := List.Nodup.of_map _ searched.nodup
    have distinct' : reached'.Nodup := List.Nodup.of_map _ (reachable_searched h').1.nodup
    refine ⟨reached', h', (List.perm_ext_iff_of_nodup distinct' distinct).2 fun r => ?_⟩
    rw [mem_reachable h, mem_reachable h']
    exact and_congr_right fun _ => exists_congr fun n => steps n r.name

/-- From trips the search comes to persons before stops, since the link to the guide is followed
before the types of the fields. -/
theorem trips_reachable :
    reachable Travel.catalog none ["Trip", "Trip"] =
      .ok [Travel.trip, Travel.person, Travel.stop] ∧
    IsLeast {names | Spread Travel.catalog none ["Trip", "Trip"] names}
      {name | name ∈ ["Trip", "Person", "Stop"]} ∧
    Ordered Travel.catalog none ["Trip", "Trip"] [Travel.trip, Travel.person, Travel.stop] ∧
    ∃ reached, reachable Travel.catalog none ["Trip"] = .ok reached ∧
      reached.Perm [Travel.trip, Travel.person, Travel.stop] := by
  have found : reachable Travel.catalog none ["Trip", "Trip"] =
      .ok [Travel.trip, Travel.person, Travel.stop] := by
    with_unfolding_all rfl
  obtain ⟨-, -, least, ordered, -, again⟩ := reachable_exact found
  exact ⟨found, least, ordered, again ["Trip"] fun root => by simp⟩

end Schema
end FieldPlan
