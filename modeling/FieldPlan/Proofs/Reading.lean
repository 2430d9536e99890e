import FieldPlan.Descent.Locality

/-! What reading a level gives. The entries are the requests of the level, one for one
and in order, each name resolved, and no two of them have one name. -/
namespace FieldPlan

def Entry.asked (entry : Entry) : Value × Request := (.str entry.spelled, entry.request)

namespace Selection

/-- What one level of a selection asks for, in order. -/
def requested (selection : Value) : List (Value × Request) :=
  match normalize selection with
  | .list fields => walk fields
  | _ => []

theorem requested_of_normalize {v : Value} {fields : List Value}
    (h : normalize v = .list fields) : requested v = walk fields := by
  rw [requested, h]

theorem normalize_normalize (v : Value) : normalize (normalize v) = normalize v := by
  fun_cases normalize v with
  | case1 entry rest => rfl
  | case2 v other => rw [normalize.eq_2 v other]

theorem requested_normalize (v : Value) : requested (normalize v) = requested v := by
  rw [requested, normalize_normalize, requested]

theorem isBlank_normalize (v : Value) : (normalize v).isBlank = v.isBlank := by
  unfold normalize
  split <;> rfl

theorem requested_blank {v : Value} (h : v.isBlank = true) : requested v = [] := by
  rw [← isBlank_normalize] at h
  unfold requested
  split
  · next items same =>
    rw [same] at h
    obtain rfl := List.isEmpty_iff.1 h
    rfl
  · rfl

/-! ### When reading succeeds -/

/-- The element asks for these names. None of them is empty. -/
def Asks (element : Value) (names : List (String × Request)) : Prop :=
  requests? element = some (names.map fun n => (.str n.1, n.2)) ∧ ∀ n ∈ names, n.1 ≠ ""

def WellFormed (fields : List Value) : Prop := ∀ element ∈ fields, ∃ names, Asks element names

def entryFor (resolve : String → String) (request : Value × Request) : Option Entry :=
  request.1.str?.map fun spelled => ⟨spelled, resolve spelled, request.2⟩

def entriesOf (resolve : String → String) (fields : List Value) : List Entry :=
  (walk fields).filterMap (entryFor resolve)

/-- The entries have names of their own, none of which has been seen. -/
def Fresh (seen : List String) (entries : List Entry) : Prop :=
  (entries.map Entry.name).Nodup ∧ ∀ entry ∈ entries, entry.name ∉ seen

theorem fresh_nil (seen : List String) : Fresh seen [] :=
  ⟨List.nodup_nil, fun _ absent => absurd absent List.not_mem_nil⟩

theorem fresh_cons {seen : List String} {entry : Entry} {rest : List Entry} :
    Fresh seen (entry :: rest) ↔ entry.name ∉ seen ∧ Fresh (entry.name :: seen) rest := by
  simp only [Fresh, List.map_cons, List.nodup_cons, List.forall_mem_cons]
  constructor
  · rintro ⟨⟨new, distinct⟩, unseen, others⟩
    refine ⟨unseen, distinct, ?_⟩
    intro other member
    rw [List.mem_cons, not_or]
    exact ⟨fun same => new (same ▸ List.mem_map_of_mem member), others other member⟩
  · rintro ⟨unseen, distinct, others⟩
    have apart (other : Entry) (member : other ∈ rest) :
        other.name ≠ entry.name ∧ other.name ∉ seen := by
      simpa only [List.mem_cons, not_or] using others other member
    refine ⟨⟨?_, distinct⟩, unseen, fun other member => (apart other member).2⟩
    intro repeated
    obtain ⟨other, member, same⟩ := List.mem_map.1 repeated
    exact (apart other member).1 same

theorem fresh_append {seen : List String} {first others : List Entry} :
    Fresh seen (first ++ others) ↔
      Fresh seen first ∧ Fresh ((first.map Entry.name).reverse ++ seen) others := by
  induction first generalizing seen with
  | nil => simp [fresh_nil]
  | cons entry rest ih => simp [fresh_cons, ih, and_assoc]

theorem requireName_ok {path : List String} {v : Value} {name : String} :
    requireName path v = .ok name ↔ v = .str name ∧ name ≠ "" := by
  cases v with
  | str s =>
    by_cases empty : s = ""
    · subst empty
      simp [requireName, malformed, reject, eq_comm]
    · simp only [requireName, beq_iff_eq, if_neg empty, Except.ok.injEq, Value.str.injEq]
      constructor
      · rintro rfl
        exact ⟨rfl, empty⟩
      · exact And.left
  | _ => simp [requireName, malformed, reject]

private theorem requireNames_ok {path : List String} {requests : List (Value × Request)}
    {names : List (String × Request)} :
    requests.mapM (fun r => (requireName path r.1).map fun name => (name, r.2)) =
        (.ok names : Outcome (List (String × Request))) ↔
      requests = names.map (fun n => (.str n.1, n.2)) ∧ ∀ n ∈ names, n.1 ≠ "" := by
  constructor
  · intro h
    induction requests generalizing names with
    | nil =>
      rw [List.mapM_nil] at h
      cases h
      simp
    | cons request rest ih =>
      rw [List.mapM_cons] at h
      obtain ⟨first, head, h⟩ := Outcome.bind_ok h
      obtain ⟨others, tail, h⟩ := Outcome.bind_ok h
      cases h
      obtain ⟨name, required, rfl⟩ := Outcome.map_ok head
      obtain ⟨key, present⟩ := requireName_ok.1 required
      obtain ⟨same, named⟩ := ih tail
      refine ⟨?_, List.forall_mem_cons.2 ⟨present, named⟩⟩
      rw [List.map_cons, ← same, ← key]
  · rintro ⟨rfl, named⟩
    induction names with
    | nil => rfl
    | cons n rest ih =>
      obtain ⟨present, others⟩ := List.forall_mem_cons.1 named
      rw [List.map_cons, List.mapM_cons, requireName_ok.2 ⟨rfl, present⟩, ih others]
      rfl

theorem elementNames_ok {path : List String} {element : Value}
    {names : List (String × Request)} :
    elementNames path element = .ok names ↔ Asks element names := by
  unfold elementNames Asks
  split
  · next unshaped => simp [unshaped, malformed, reject]
  · next requests found => rw [found, requireNames_ok, Option.some.injEq]

theorem enrol_ok {resolve : String → String} {path seen : List String}
    {names : List (String × Request)} {entries : List Entry} :
    enrol resolve path seen names = .ok entries ↔
      entries = names.map (fun n => ⟨n.1, resolve n.1, n.2⟩) ∧ Fresh seen entries := by
  induction names generalizing seen entries with
  | nil =>
    rw [enrol, Except.ok.injEq, List.map_nil]
    constructor
    · rintro rfl
      exact ⟨rfl, fresh_nil seen⟩
    · exact fun h => h.1.symm
  | cons first rest ih =>
    obtain ⟨spelled, request⟩ := first
    simp only [enrol, List.map_cons]
    by_cases old : seen.contains (resolve spelled) = true
    · rw [if_pos old]
      constructor
      · intro h
        cases h
      · rintro ⟨rfl, fresh⟩
        exact absurd (List.contains_iff_mem.1 old) (fresh_cons.1 fresh).1
    · rw [if_neg old]
      constructor
      · intro h
        obtain ⟨others, enrolled, rfl⟩ := Outcome.map_ok h
        obtain ⟨same, fresh⟩ := ih.1 enrolled
        exact ⟨by rw [← same], fresh_cons.2 ⟨by simpa using old, fresh⟩⟩
      · rintro ⟨rfl, fresh⟩
        rw [ih.2 ⟨rfl, (fresh_cons.1 fresh).2⟩]
        rfl

theorem entriesOf_cons (resolve : String → String) {element : Value}
    {names : List (String × Request)} (rest : List Value) (asks : Asks element names) :
    entriesOf resolve (element :: rest) =
      names.map (fun n => ⟨n.1, resolve n.1, n.2⟩) ++ entriesOf resolve rest := by
  have first : entryFor resolve ∘ (fun n : String × Request => (Value.str n.1, n.2)) =
      some ∘ fun n => ⟨n.1, resolve n.1, n.2⟩ := by
    funext n
    rfl
  rw [entriesOf, walk, List.flatMap_cons, asks.1, Option.getD_some, List.filterMap_append,
    List.filterMap_map, first, ← List.filterMap_map, List.filterMap_some]
  rfl

theorem walk_append (first others : List Value) :
    walk (first ++ others) = walk first ++ walk others :=
  List.flatMap_append

theorem entriesOf_append (resolve : String → String) (first others : List Value) :
    entriesOf resolve (first ++ others) = entriesOf resolve first ++ entriesOf resolve others := by
  rw [entriesOf, walk_append, List.filterMap_append]
  rfl

theorem readFrom_ok {resolve : String → String} {path seen : List String}
    {fields : List Value} {entries : List Entry} :
    readFrom resolve path seen fields = .ok entries ↔
      WellFormed fields ∧ entries = entriesOf resolve fields ∧ Fresh seen entries := by
  induction fields generalizing seen entries with
  | nil =>
    rw [readFrom, Except.ok.injEq]
    constructor
    · rintro rfl
      exact ⟨fun _ absent => absurd absent List.not_mem_nil, rfl, fresh_nil seen⟩
    · exact fun h => h.2.1.symm
  | cons element rest ih =>
    rw [readFrom]
    constructor
    · intro h
      obtain ⟨names, named, h⟩ := Outcome.bind_ok h
      obtain ⟨first, enrolled, h⟩ := Outcome.bind_ok h
      obtain ⟨others, last, h⟩ := Outcome.bind_ok h
      cases h
      have asks := elementNames_ok.1 named
      obtain ⟨same, fresh⟩ := enrol_ok.1 enrolled
      obtain ⟨formed, restSame, restFresh⟩ := ih.1 last
      refine ⟨List.forall_mem_cons.2 ⟨⟨names, asks⟩, formed⟩, ?_, fresh_append.2 ⟨fresh, restFresh⟩⟩
      rw [entriesOf_cons resolve rest asks, ← same, ← restSame]
    · rintro ⟨formed, rfl, fresh⟩
      obtain ⟨⟨names, asks⟩, formed⟩ := List.forall_mem_cons.1 formed
      rw [entriesOf_cons resolve rest asks] at fresh ⊢
      obtain ⟨fresh, restFresh⟩ := fresh_append.1 fresh
      rw [elementNames_ok.2 asks]
      change (enrol resolve path seen names >>= _) = _
      rw [enrol_ok.2 ⟨rfl, fresh⟩]
      change (readFrom resolve path _ rest >>= _) = _
      rw [ih.2 ⟨formed, rfl, restFresh⟩]
      rfl

theorem read_ok_iff {resolve : String → String} {path : List String} {fields : List Value}
    {entries : List Entry} :
    read resolve path fields = .ok entries ↔
      WellFormed fields ∧ entries = entriesOf resolve fields ∧ (entries.map Entry.name).Nodup := by
  rw [read, readFrom_ok, Fresh]
  simp

theorem WellFormed.asked {fields : List Value} (h : WellFormed fields)
    (resolve : String → String) :
    walk fields = (entriesOf resolve fields).map Entry.asked ∧
      ∀ entry ∈ entriesOf resolve fields, entry.name = resolve entry.spelled ∧ entry.spelled ≠ "" := by
  induction fields with
  | nil => exact ⟨rfl, fun _ absent => absurd absent List.not_mem_nil⟩
  | cons element rest ih =>
    obtain ⟨⟨names, asks⟩, formed⟩ := List.forall_mem_cons.1 h
    obtain ⟨same, named⟩ := ih formed
    rw [entriesOf_cons resolve rest asks]
    refine ⟨?_, ?_⟩
    · rw [walk, List.flatMap_cons, asks.1, ← walk, same, List.map_append, List.map_map]
      rfl
    · intro entry member
      rcases List.mem_append.1 member with member | member
      · obtain ⟨n, found, rfl⟩ := List.mem_map.1 member
        exact ⟨rfl, asks.2 n found⟩
      · exact named entry member

theorem read_ok {resolve : String → String} {path : List String} {fields : List Value}
    {entries : List Entry} (h : read resolve path fields = .ok entries) :
    walk fields = entries.map Entry.asked ∧
      (∀ entry ∈ entries, entry.name = resolve entry.spelled ∧ entry.spelled ≠ "") ∧
      (entries.map Entry.name).Nodup := by
  obtain ⟨formed, rfl, distinct⟩ := read_ok_iff.1 h
  obtain ⟨asked, named⟩ := formed.asked resolve
  exact ⟨asked, named, distinct⟩

end Selection
end FieldPlan
