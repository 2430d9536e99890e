/-! Tables: pairs of a key and a value in the order in which the keys first
arrived. Writing to a present key keeps its place and its key. -/
namespace FieldPlan

abbrev Table (κ α : Type) := List (κ × α)

namespace Table
variable {κ α : Type}

/-- Writes a value, keys being compared with `same`. -/
def insertBy (same : κ → κ → Bool) (key : κ) (value : α) : Table κ α → Table κ α
  | [] => [(key, value)]
  | (k, v) :: rest =>
    if same k key then (k, value) :: rest else (k, v) :: insertBy same key value rest

def ofListBy (same : κ → κ → Bool) (pairs : List (κ × α)) : Table κ α :=
  pairs.foldl (fun table pair => table.insertBy same pair.1 pair.2) []

def ofList [BEq κ] (pairs : List (κ × α)) : Table κ α := ofListBy (· == ·) pairs

def get? [BEq κ] (table : Table κ α) (key : κ) : Option α := List.lookup key table

def keys (table : Table κ α) : List κ := table.map (·.1)

/-- The key that first holds the given value. -/
def keyOf? [BEq α] (table : Table κ α) (value : α) : Option κ :=
  (table.find? (fun pair => pair.2 == value)).map (·.1)

theorem get?_insertBy [BEq κ] [LawfulBEq κ] (table : Table κ α) (key other : κ) (value : α) :
    (table.insertBy (· == ·) key value).get? other =
      if other == key then some value else table.get? other := by
  simp only [get?]
  induction table with
  | nil => cases same : other == key <;> simp [insertBy, List.lookup_cons, same]
  | cons pair rest ih =>
    obtain ⟨k, v⟩ := pair
    cases here : k == key with
    | true =>
      obtain rfl := eq_of_beq here
      cases same : other == k <;> simp [insertBy, List.lookup_cons, same]
    | false =>
      cases same : other == k with
      | true =>
        obtain rfl := eq_of_beq same
        simp [insertBy, here]
      | false => simp [insertBy, List.lookup_cons, here, same, ih]

theorem keys_insertBy [BEq κ] [LawfulBEq κ] (table : Table κ α) (key : κ) (value : α) :
    (table.insertBy (· == ·) key value).keys =
      if table.keys.contains key then table.keys else table.keys ++ [key] := by
  simp only [keys]
  induction table with
  | nil => simp [insertBy]
  | cons pair rest ih =>
    obtain ⟨k, v⟩ := pair
    cases here : k == key with
    | true => simp [insertBy, eq_of_beq here]
    | false =>
      have apart : (key == k) = false := by rw [BEq.comm, here]
      simp only [insertBy, here, Bool.false_eq_true, if_false, List.map_cons, ih,
        List.contains_cons, apart, Bool.false_or]
      exact apply_ite (k :: ·) ..

theorem mem_insertBy [BEq κ] [LawfulBEq κ] {table : Table κ α} {key : κ} {value : α}
    {pair : κ × α} (h : pair ∈ table.insertBy (· == ·) key value) :
    pair ∈ table ∨ pair = (key, value) := by
  induction table with
  | nil =>
    rw [insertBy, List.mem_singleton] at h
    exact Or.inr h
  | cons first rest ih =>
    obtain ⟨k, v⟩ := first
    cases here : k == key with
    | true =>
      obtain rfl := eq_of_beq here
      rw [insertBy, if_pos here] at h
      rcases List.mem_cons.1 h with written | later
      · exact Or.inr written
      · exact Or.inl (List.mem_cons_of_mem _ later)
    | false =>
      rw [insertBy, here, if_neg Bool.false_ne_true] at h
      rcases List.mem_cons.1 h with rfl | later
      · exact Or.inl List.mem_cons_self
      · rcases ih later with old | written
        · exact Or.inl (List.mem_cons_of_mem _ old)
        · exact Or.inr written

theorem nodup_keys_insertBy [BEq κ] [LawfulBEq κ] {table : Table κ α} (key : κ) (value : α)
    (h : table.keys.Nodup) : (table.insertBy (· == ·) key value).keys.Nodup := by
  rw [keys_insertBy]
  split
  · exact h
  · next absent =>
    refine List.nodup_append.2 ⟨h, List.nodup_cons.2 ⟨List.not_mem_nil, List.nodup_nil⟩, ?_⟩
    intro k present other last
    rw [List.mem_singleton] at last
    rintro rfl
    exact absent (List.contains_iff_mem.2 (last ▸ present))

theorem nodup_keys_ofList [BEq κ] [LawfulBEq κ] (pairs : List (κ × α)) :
    (ofList pairs).keys.Nodup := by
  suffices grows : ∀ table : Table κ α, table.keys.Nodup →
      (pairs.foldl (fun t pair => t.insertBy (· == ·) pair.1 pair.2) table).keys.Nodup from
    grows [] List.nodup_nil
  induction pairs with
  | nil => exact fun table h => h
  | cons pair rest ih => exact fun table h => ih _ (nodup_keys_insertBy pair.1 pair.2 h)

theorem mem_ofList [BEq κ] [LawfulBEq κ] {pairs : List (κ × α)} {pair : κ × α}
    (h : pair ∈ ofList pairs) : pair ∈ pairs := by
  suffices grows : ∀ table : Table κ α,
      pair ∈ pairs.foldl (fun t pair => t.insertBy (· == ·) pair.1 pair.2) table →
        pair ∈ table ∨ pair ∈ pairs from
    (grows [] h).resolve_left List.not_mem_nil
  clear h
  induction pairs with
  | nil => exact fun table h => Or.inl h
  | cons first rest ih =>
    intro table h
    rcases ih _ h with early | late
    · rcases mem_insertBy early with old | written
      · exact Or.inl old
      · exact Or.inr (written ▸ List.mem_cons_self)
    · exact Or.inr (List.mem_cons_of_mem _ late)

theorem insertBy_of_new {same : κ → κ → Bool} {table : Table κ α} {key : κ} {value : α}
    (new : ∀ pair ∈ table, same pair.1 key = false) :
    table.insertBy same key value = table ++ [(key, value)] := by
  induction table with
  | nil => rfl
  | cons first rest ih =>
    obtain ⟨other, others⟩ := List.forall_mem_cons.1 new
    rw [insertBy, if_neg (Bool.eq_false_iff.1 other), ih others, List.cons_append]

theorem ofListBy_of_pairwise {same : κ → κ → Bool} {pairs : List (κ × α)}
    (apart : pairs.Pairwise fun p q => same p.1 q.1 = false) : ofListBy same pairs = pairs := by
  suffices grows : ∀ table : Table κ α,
      (table ++ pairs).Pairwise (fun p q => same p.1 q.1 = false) →
        pairs.foldl (fun t q => t.insertBy same q.1 q.2) table = table ++ pairs from
    grows [] apart
  clear apart
  induction pairs with
  | nil => exact fun table _ => (List.append_nil table).symm
  | cons first rest ih =>
    intro table apart
    have new : ∀ pair ∈ table, same pair.1 first.1 = false := fun pair member =>
      (List.pairwise_append.1 apart).2.2 pair member first List.mem_cons_self
    rw [List.append_cons] at apart
    rw [List.foldl_cons, insertBy_of_new new, ih _ apart, ← List.append_cons]

theorem value_of_mem_insertBy {same : κ → κ → Bool} {table : Table κ α} {key : κ} {value : α}
    {pair : κ × α} (h : pair ∈ table.insertBy same key value) : pair ∈ table ∨ pair.2 = value := by
  induction table with
  | nil =>
    obtain rfl := List.mem_singleton.1 h
    exact Or.inr rfl
  | cons first rest ih =>
    rw [insertBy] at h
    split at h
    · rcases List.mem_cons.1 h with rfl | later
      · exact Or.inr rfl
      · exact Or.inl (List.mem_cons_of_mem _ later)
    · rcases List.mem_cons.1 h with rfl | later
      · exact Or.inl List.mem_cons_self
      · exact (ih later).imp_left (List.mem_cons_of_mem _)

theorem value_mem_of_mem_ofListBy {same : κ → κ → Bool} {pairs : List (κ × α)} {pair : κ × α}
    (h : pair ∈ ofListBy same pairs) : ∃ q ∈ pairs, q.2 = pair.2 := by
  suffices grows : ∀ table : Table κ α,
      pair ∈ pairs.foldl (fun t q => t.insertBy same q.1 q.2) table →
        pair ∈ table ∨ ∃ q ∈ pairs, q.2 = pair.2 from
    (grows [] h).resolve_left List.not_mem_nil
  clear h
  induction pairs with
  | nil => exact fun table h => Or.inl h
  | cons first rest ih =>
    intro table h
    rcases ih _ h with early | ⟨q, later, same⟩
    · rcases value_of_mem_insertBy early with old | written
      · exact Or.inl old
      · exact Or.inr ⟨first, List.mem_cons_self, written.symm⟩
    · exact Or.inr ⟨q, List.mem_cons_of_mem _ later, same⟩

theorem mem_of_get? [BEq κ] [LawfulBEq κ] {table : Table κ α} {key : κ} {value : α}
    (h : table.get? key = some value) : (key, value) ∈ table := by
  obtain ⟨front, rest, rfl, -⟩ := List.lookup_eq_some_iff.1 h
  simp

theorem get?_eq_none [BEq κ] [LawfulBEq κ] {table : Table κ α} {key : κ} :
    table.get? key = none ↔ ∀ value, (key, value) ∉ table := by
  rw [get?, List.lookup_eq_none_iff]
  constructor
  · intro absent value member
    exact absurd (absent _ member) (by simp)
  · rintro absent ⟨k, v⟩ member
    have apart : key ≠ k := by
      rintro rfl
      exact absent v member
    simpa using apart

/-! Tables read backwards. -/

variable [BEq α] [LawfulBEq α]

theorem mem_of_keyOf? {table : Table κ α} {key : κ} {value : α}
    (h : table.keyOf? value = some key) : (key, value) ∈ table := by
  obtain ⟨pair, found, rfl⟩ := Option.map_eq_some_iff.1 h
  have same : pair.2 = value := by simpa using List.find?_some found
  rw [← same]
  exact List.mem_of_find?_eq_some found

omit [LawfulBEq α] in
theorem keyOf?_isSome {table : Table κ α} {value : α} :
    (table.keyOf? value).isSome = table.any (·.2 == value) := by
  rw [keyOf?, Option.isSome_map, Bool.eq_iff_iff, List.find?_isSome, List.any_eq_true]

/-- Where no value has two keys, the entries are the same in both directions. -/
theorem keyOf?_eq_some {table : Table κ α} (distinct : (table.map (·.2)).Nodup) {key : κ}
    {value : α} : table.keyOf? value = some key ↔ (key, value) ∈ table := by
  refine ⟨mem_of_keyOf?, ?_⟩
  intro member
  induction table with
  | nil => exact absurd member List.not_mem_nil
  | cons pair rest ih =>
    rw [List.map_cons, List.nodup_cons] at distinct
    rcases List.mem_cons.1 member with rfl | later
    · simp [keyOf?]
    · have apart : pair.2 ≠ value := by
        intro same
        exact distinct.1 (List.mem_map.2 ⟨_, later, same.symm⟩)
      have skipped : keyOf? (pair :: rest) value = keyOf? rest value := by
        rw [keyOf?, List.find?_cons_of_neg (by simpa using apart), keyOf?]
      rw [skipped]
      exact ih distinct.2 later

theorem get?_swapped (table : Table κ α) (value : α) :
    get? (table.map fun entry => (entry.2, entry.1)) value = table.keyOf? value := by
  induction table with
  | nil => rfl
  | cons pair rest ih =>
    rw [get?] at ih
    cases same : value == pair.2 with
    | true =>
      obtain rfl := eq_of_beq same
      simp [get?, keyOf?]
    | false =>
      have apart : (pair.2 == value) = false := by rw [BEq.comm, same]
      rw [get?, List.map_cons, List.lookup_cons, same, ih, keyOf?, keyOf?, List.find?_cons, apart]

end Table

/-- The items of a list by name: of several with one name the last, in the place
of the first. -/
def byName {α : Type} (name : α → String) (items : List α) : List α :=
  (Table.ofList (items.map fun item => (name item, item))).map (·.2)

theorem mem_of_byName {α : Type} {name : α → String} {items : List α} {a : α}
    (h : a ∈ byName name items) : a ∈ items := by
  obtain ⟨pair, member, rfl⟩ := List.mem_map.1 h
  obtain ⟨item, present, rfl⟩ := List.mem_map.1 (Table.mem_ofList member)
  exact present

theorem nodup_byName {α : Type} (name : α → String) (items : List α) :
    ((byName name items).map name).Nodup := by
  have keys : (byName name items).map name =
      (Table.ofList (items.map fun item => (name item, item))).keys := by
    rw [byName, List.map_map, Table.keys]
    refine List.map_congr_left ?_
    intro pair member
    obtain ⟨item, -, rfl⟩ := List.mem_map.1 (Table.mem_ofList member)
    rfl
  rw [keys]
  exact Table.nodup_keys_ofList _

theorem find?_byName {α : Type} {name : α → String} {items : List α} {key : String} {a : α} :
    (byName name items).find? (name · == key) = some a ↔
      a ∈ byName name items ∧ name a = key := by
  constructor
  · intro found
    exact ⟨List.mem_of_find?_eq_some found, by simpa using List.find?_some found⟩
  · rintro ⟨member, rfl⟩
    have distinct := nodup_byName name items
    generalize byName name items = all at member distinct ⊢
    induction all with
    | nil => exact absurd member List.not_mem_nil
    | cons b rest ih =>
      rw [List.map_cons, List.nodup_cons] at distinct
      rcases List.mem_cons.1 member with rfl | later
      · simp
      · have apart : name b ≠ name a := fun same =>
          distinct.1 (same ▸ List.mem_map_of_mem later)
        rw [List.find?_cons_of_neg (by simpa using apart)]
        exact ih later distinct.2

end FieldPlan
