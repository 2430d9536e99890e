import FieldPlan.Proofs.Offence

/-! The check of a level and the walk over it. The check lets through just the lists of texts,
mappings and pairs whose names are no empty texts and stand for different fields, and then the walk
comes by each of these names once and in their order. -/
namespace FieldPlan.Selection

/-- An element that asks for fields by names: a text, a mapping with such keys, or a pair that
starts with one. -/
inductive IsElement : Value → Prop
  | text {s : String} (named : s ≠ "") : IsElement (.str s)
  | keys {entries : List (Value × Value)} (named : ∀ entry ∈ entries, IsName entry.1) :
      IsElement (.mapping entries)
  | pair {first nested : Value} (named : IsName first) : IsElement (.tuple [first, nested])

def elementTexts : Value → List String
  | .str s => [s]
  | .mapping entries => entries.filterMap fun entry => entry.1.str?
  | .tuple [.str s, _] => [s]
  | _ => []

def spelledNames (fields : List Value) : List String := fields.flatMap elementTexts

/-- The first element that the check does not let through, with what it is rejected for. A bad
shape or key comes before a name that stands for a field of this or an earlier element. -/
inductive FirstOffence (resolve : String → String) (path : List String) :
    List Value → Rejection → Prop
  | malformed {before after : List Value} {element bad : Value}
      (formed : ∀ e ∈ before, IsElement e) (distinct : ((spelledNames before).map resolve).Nodup)
      (wrong : Malformed element bad) : FirstOffence resolve path (before ++ element :: after)
        ⟨.invalidFieldType, path, none, [("value", .str bad.literal)]⟩
  | repeated {before after : List Value} {element : Value} {earlier later : List String}
      {again : String} (formed : ∀ e ∈ before, IsElement e) (here : IsElement element)
      (split : elementTexts element = earlier ++ again :: later)
      (distinct : ((spelledNames before ++ earlier).map resolve).Nodup)
      (old : resolve again ∈ (spelledNames before ++ earlier).map resolve) :
      FirstOffence resolve path (before ++ element :: after)
        ⟨.duplicateField, path ++ [resolve again], some (resolve again), []⟩

variable {resolve : String → String} {path : List String} {element : Value} {fields : List Value}
  {names : List (String × Request)} {r : Rejection}

theorem Asks.isElement (h : Asks element names) : IsElement element := by
  obtain ⟨shape, named⟩ := h
  have texts : ∀ asked ∈ names.map (fun n => (Value.str n.1, n.2)), IsName asked.1 := by
    intro asked member
    obtain ⟨n, found, rfl⟩ := List.mem_map.1 member
    exact ⟨n.1, rfl, named n found⟩
  unfold requests? at shape
  split at shape
  · rw [← Option.some.inj shape] at texts
    obtain ⟨s, same, present⟩ := texts _ List.mem_cons_self
    cases same
    exact .text present
  · rw [← Option.some.inj shape] at texts
    exact .keys fun entry member => texts _ (List.mem_map_of_mem member)
  · rw [← Option.some.inj shape] at texts
    exact .pair (texts _ List.mem_cons_self)
  · cases shape

theorem Asks.elementTexts_eq (h : Asks element names) : elementTexts element = names.map (·.1) := by
  obtain ⟨shape, -⟩ := h
  unfold requests? at shape
  split at shape
  · rw [Option.some.injEq, eq_comm, List.map_eq_singleton_iff] at shape
    obtain ⟨⟨spelled, request⟩, rfl, asked⟩ := shape
    cases asked
    rfl
  · next entries =>
    have spelled : entries.map (·.1) = names.map fun n => Value.str n.1 := by
      have keys := congrArg (List.map Prod.fst) (Option.some.inj shape)
      rwa [List.map_map, List.map_map] at keys
    have texts : elementTexts (.mapping entries) = (entries.map (·.1)).filterMap Value.str? := by
      rw [List.filterMap_map]
      rfl
    rw [texts, spelled, List.filterMap_map]
    exact congrFun List.filterMap_eq_map names
  · rw [Option.some.injEq, eq_comm, List.map_eq_singleton_iff] at shape
    obtain ⟨⟨spelled, request⟩, rfl, asked⟩ := shape
    cases asked
    rfl
  · cases shape

theorem isElement_iff : IsElement element ↔ ∃ names, Asks element names := by
  constructor
  · intro h
    have named : ∃ requests, requests? element = some requests ∧
        ∀ asked ∈ requests, IsName asked.1 := by
      cases h with
      | text present =>
        exact ⟨_, rfl, List.forall_mem_singleton.2 ⟨_, rfl, present⟩⟩
      | keys named =>
        exact ⟨_, rfl, List.forall_mem_map.2 named⟩
      | pair named =>
        exact ⟨_, rfl, List.forall_mem_singleton.2 named⟩
    obtain ⟨requests, found, named⟩ := named
    obtain ⟨names, rfl, present⟩ := exists_names named
    exact ⟨names, found, present⟩
  · rintro ⟨names, asks⟩
    exact asks.isElement

theorem wellFormed_iff : WellFormed fields ↔ ∀ e ∈ fields, IsElement e :=
  forall₂_congr fun _ _ => isElement_iff.symm

theorem WellFormed.spelled (h : WellFormed fields) :
    (entriesOf resolve fields).map Entry.spelled = spelledNames fields ∧
      fieldNames resolve fields = (spelledNames fields).map resolve := by
  induction fields with
  | nil => exact ⟨rfl, rfl⟩
  | cons element rest ih =>
    obtain ⟨⟨names, asks⟩, formed⟩ := List.forall_mem_cons.1 h
    obtain ⟨spelled, resolved⟩ := ih formed
    have texts : spelledNames (element :: rest) = names.map (·.1) ++ spelledNames rest := by
      rw [spelledNames, List.flatMap_cons, asks.elementTexts_eq]
      rfl
    rw [fieldNames] at resolved ⊢
    rw [entriesOf_cons resolve rest asks, texts, List.map_append, List.map_append, List.map_append,
      spelled, resolved, List.map_map, List.map_map, List.map_map]
    exact ⟨rfl, rfl⟩

theorem firstOffence_iff : FirstOffence resolve path fields r ↔ Faulty resolve path fields r := by
  constructor
  · intro h
    cases h with
    | malformed formed distinct wrong =>
      have formed := wellFormed_iff.2 formed
      exact .malformed formed (formed.spelled.2 ▸ distinct) wrong
    | repeated formed here split distinct old =>
      have formed := wellFormed_iff.2 formed
      obtain ⟨names, asks⟩ := isElement_iff.1 here
      rw [asks.elementTexts_eq, List.map_eq_append_iff] at split
      obtain ⟨earlier, others, rfl, rfl, split⟩ := split
      obtain ⟨again, later, rfl, rfl, rfl⟩ := List.map_eq_cons_iff.1 split
      rw [List.map_append, List.map_map, ← formed.spelled.2] at distinct old
      exact .repeated formed asks distinct old
  · intro h
    cases h with
    | malformed formed distinct wrong =>
      exact .malformed (wellFormed_iff.1 formed) (formed.spelled.2 ▸ distinct) wrong
    | @repeated before after element earlier later again formed asks distinct old =>
      have resolved : fieldNames resolve before ++ earlier.map (fun n => resolve n.1) =
          (spelledNames before ++ earlier.map (·.1)).map resolve := by
        rw [List.map_append, List.map_map, formed.spelled.2]
        rfl
      rw [resolved] at distinct old
      have split : elementTexts element = earlier.map (·.1) ++ again.1 :: later.map (·.1) := by
        rw [asks.elementTexts_eq, List.map_append, List.map_cons]
      exact .repeated (wellFormed_iff.1 formed) asks.isElement split distinct old

/-- A level passes the check just if all its elements ask for fields by names and no two names stand
for one field. Then the walk over the level comes by these names one for one, and the entries are
what it comes by. Otherwise the rejection is for the first element that offends. -/
theorem read_exact (resolve : String → String) (path : List String) (fields : List Value) :
    ((∃ entries, read resolve path fields = .ok entries) ↔
      (∀ element ∈ fields, IsElement element) ∧ ((spelledNames fields).map resolve).Nodup) ∧
    (∀ entries, read resolve path fields = .ok entries →
      (walk fields).map Prod.fst = (spelledNames fields).map Value.str ∧
        walk fields = entries.map Entry.asked ∧
        entries.map Entry.name = (spelledNames fields).map resolve) ∧
    ∀ failure, read resolve path fields = .error failure ↔
      ∃ r, failure = .rejected r ∧ FirstOffence resolve path fields r := by
  refine ⟨?_, ?_, ?_⟩
  · simp only [read_ok_iff, wellFormed_iff]
    constructor
    · rintro ⟨entries, formed, rfl, distinct⟩
      exact ⟨formed, (wellFormed_iff.2 formed).spelled.2 ▸ distinct⟩
    · rintro ⟨formed, distinct⟩
      refine ⟨entriesOf resolve fields, formed, rfl, ?_⟩
      change (fieldNames resolve fields).Nodup
      rwa [(wellFormed_iff.2 formed).spelled.2]
  · intro entries found
    obtain ⟨formed, rfl, -⟩ := read_ok_iff.1 found
    obtain ⟨asked, -⟩ := formed.asked resolve
    obtain ⟨spelled, resolved⟩ : (entriesOf resolve fields).map Entry.spelled =
        spelledNames fields ∧ fieldNames resolve fields = (spelledNames fields).map resolve :=
      formed.spelled
    refine ⟨?_, asked, resolved⟩
    rw [asked, ← spelled, List.map_map, List.map_map]
    rfl
  · intro failure
    simp only [read_error_iff, firstOffence_iff]

end FieldPlan.Selection
