import FieldPlan.Proofs.Offence
import Mathlib.Data.List.Forall2

/-! The arguments of a calculation are taken key by key. A key means an argument in one of two ways,
and an argument accepts a value or not; what has been taken so far decides only whether a key comes
too late. So the first key that offends is blamed, and without one the first argument left out. -/
namespace FieldPlan

theorem Table.get?_ofList {κ α : Type} [BEq κ] [LawfulBEq κ] {pairs : List (κ × α)} {key : κ} :
    (ofList pairs).get? key = (pairs.reverse.find? (·.1 == key)).map (·.2) := by
  induction pairs using List.reverseRecOn with
  | nil => rfl
  | append_singleton pairs pair ih =>
    have written : ofList (pairs ++ [pair]) = (ofList pairs).insertBy (· == ·) pair.1 pair.2 := by
      rw [ofList, ofListBy, List.foldl_append, List.foldl_cons, List.foldl_nil]
      rfl
    rw [written, get?_insertBy, ih, List.reverse_append, List.reverse_singleton,
      List.singleton_append, List.find?_cons, BEq.comm]
    cases pair.1 == key <;> rfl

theorem find?_byName_eq {α : Type} {name : α → String} {items : List α} {key : String} :
    (byName name items).find? (name · == key) = items.reverse.find? (name · == key) := by
  have found : (byName name items).find? (name · == key) =
      (Table.ofList (items.map fun item => (name item, item))).get? key := by
    have named : ∀ pair ∈ Table.ofList (items.map fun item => (name item, item)),
        pair.1 = name pair.2 := by
      intro pair member
      obtain ⟨item, -, rfl⟩ := List.mem_map.1 (Table.mem_ofList member)
      rfl
    rw [byName]
    generalize Table.ofList (items.map fun item => (name item, item)) = table at named
    induction table with
    | nil => rfl
    | cons pair rest ih =>
      obtain ⟨same, others⟩ := List.forall_mem_cons.1 named
      rw [List.map_cons, List.find?_cons, ih others, Table.get?, Table.get?, List.lookup_cons, same,
        BEq.comm]
  rw [found, Table.get?_ofList, ← List.map_reverse, List.find?_map, Option.map_map]
  exact Option.map_id'

namespace Arguments

/-- The argument is declared, and its name is not declared again after it. -/
def Governs (arguments : List Argument) (a : Argument) : Prop :=
  ∃ before after, arguments = before ++ a :: after ∧ ∀ b ∈ after, b.name ≠ a.name

/-- The key is the name of the argument, or else its snake form is. -/
inductive Means (arguments : List Argument) : Value → Argument → Prop
  | verbatim {a : Argument} : Governs arguments a → Means arguments (.str a.name) a
  | snake {s : String} {a : Argument} : (∀ b ∈ arguments, b.name ≠ s) → Governs arguments a →
      Name.fromCamel s = a.name → Means arguments (.str s) a

inductive Scalar : Primitive → Value → Prop
  | boolean (b : Bool) : Scalar .boolean (.bool b)
  | integer (i : Int) : Scalar .integer (.int i)
  | whole {kind : Primitive} (i : Int) : kind ∈ [.float, .duration, .decimal] →
      Scalar kind (.int i)
  | float {kind : Primitive} (x : Binary64) : kind ∈ [.float, .duration, .decimal] →
      Scalar kind (.float x)
  | text {kind : Primitive} (s : String) : kind ∉ [.boolean, .integer, .float, .duration] →
      Scalar kind (.str s)
  | term (v : Value) : Scalar .term v

/-- The types whose values are not looked at. -/
def Unchecked : TypeRef → Prop
  | .primitive _ _ => False
  | .array _ => False
  | .map _ => False
  | _ => True

/-- The values of a type: in an array there may be nulls, and a map may hold anything. -/
inductive Matches : TypeRef → Value → Prop
  | scalar {kind : Primitive} {v : Value} : Scalar kind v → Matches (.primitive kind []) v
  | listed {kind : Primitive} {oneOf : List String} {s : String} : s ∈ oneOf →
      Matches (.primitive kind oneOf) (.str s)
  | array {item : TypeRef} {items : List Value} : (∀ v ∈ items, v ≠ .null → Matches item v) →
      Matches (.array item) (.list items)
  | map (slots : List (Slot TypeRef)) (entries : List (Value × Value)) :
      Matches (.map slots) (.mapping entries)
  | unchecked {t : TypeRef} (v : Value) : Unchecked t → Matches t v

def Accepts (a : Argument) (v : Value) : Prop :=
  v = .null ∧ a.allowNil = true ∨ v ≠ .null ∧ Matches a.type v

/-- The entry gives its value to the argument that the key means, and the argument accepts it. -/
def Gives (arguments : List Argument) (entry : Value × Value) (given : String × Value) : Prop :=
  ∃ a, Means arguments entry.1 a ∧ Accepts a entry.2 ∧ given = (a.name, entry.2)

/-- Every entry gives its value, in order, and no two to one argument. -/
structure Taken (arguments : List Argument) (entries : List (Value × Value))
    (given : List (String × Value)) : Prop where
  each : List.Forall₂ (Gives arguments) entries given
  distinct : (given.map Prod.fst).Nodup

inductive Refuses (a : Argument) : Value → String → Prop
  | null : a.allowNil = false → Refuses a .null "argument does not accept null"
  | mismatch {v : Value} : v ≠ .null → ¬Matches a.type v →
      Refuses a v ("value " ++ v.literal ++ " does not match the argument type")

/-- What is wrong with an entry that comes after the given values, and the argument it is about:
the key as it is spelled if it means none. -/
inductive Offends (arguments : List Argument) (given : List (String × Value)) :
    Value × Value → String → String → Prop
  | unknown {key v : Value} : (∀ a, ¬Means arguments key a) →
      Offends arguments given (key, v) "unknown argument" key.plain
  | repeated {key v : Value} {a : Argument} : Means arguments key a → a.name ∈ given.map Prod.fst →
      Offends arguments given (key, v) "argument given twice" a.name
  | refused {key v : Value} {a : Argument} {problem : String} : Means arguments key a →
      a.name ∉ given.map Prod.fst → Refuses a v problem →
      Offends arguments given (key, v) problem a.name

def Missing (given : List (String × Value)) (a : Argument) : Prop :=
  a.isRequired = true ∧ a.name ∉ given.map Prod.fst

/-- The details of a rejection: the first entry that offends, or without one the first argument
that is left out though it is required. -/
inductive Blames (arguments : List Argument) : Value → List (String × String) → Prop
  | shape {raw : Value} : (∀ entries, raw ≠ .mapping entries) →
      Blames arguments raw [("problem", "'args' must be an object")]
  | entry {before after : List (Value × Value)} {entry : Value × Value}
      {given : List (String × Value)} {problem named : String} : Taken arguments before given →
      Offends arguments given entry problem named →
      Blames arguments (.mapping (before ++ entry :: after))
        [("problem", problem), ("argument", named)]
  | missing {entries : List (Value × Value)} {given : List (String × Value)}
      {before after : List Argument} {a : Argument} : Taken arguments entries given →
      arguments = before ++ a :: after → Missing given a → (∀ b ∈ before, ¬Missing given b) →
      Blames arguments (.mapping entries)
        [("problem", "missing required argument"), ("argument", a.name)]

/-! ### Values -/

theorem isNull_iff {v : Value} : v.isNull = true ↔ v = .null := by
  cases v <;> simp [Value.isNull]

theorem fitsPrimitive_iff {kind : Primitive} {v : Value} :
    fitsPrimitive kind v = true ↔ Scalar kind v := by
  constructor
  · intro h
    cases kind with
    | term => exact .term v
    | _ => cases v <;> first | contradiction | constructor <;> decide
  · intro h
    cases h with
    | boolean | integer => rfl
    | whole i numeric | float x numeric => cases kind <;> first | rfl | contradiction
    | text s textual => cases kind <;> first | rfl | exact absurd (by decide) textual
    | term => rfl

theorem fits_iff {t : TypeRef} {v : Value} : fits t v = true ↔ Matches t v := by
  fun_induction fits t v with
  | case1 item items ih =>
    have each : ∀ x, (x.isNull || fits item x) = true ↔ x ≠ .null → Matches item x := by
      intro x
      rw [Bool.or_eq_true, isNull_iff, ih, ← or_iff_not_imp_left]
    rw [List.all_eq_true]
    constructor
    · exact fun all => .array fun x member => (each x).1 (all x member)
    · intro h
      cases h with
      | array all => exact fun x member => (each x).2 (all x member)
      | unchecked _ other => exact other.elim
  | case2 item v notList =>
    refine iff_of_false Bool.false_ne_true fun h => ?_
    cases h with
    | array all => exact notList _ rfl
    | unchecked _ other => exact other.elim
  | case3 slots entries => exact iff_of_true rfl (.map slots entries)
  | case4 slots v notMapping =>
    refine iff_of_false Bool.false_ne_true fun h => ?_
    cases h with
    | map _ entries => exact notMapping entries rfl
    | unchecked _ other => exact other.elim
  | case5 kind v =>
    rw [fitsPrimitive_iff]
    refine ⟨.scalar, fun h => ?_⟩
    cases h with
    | scalar scalar => exact scalar
    | listed nowhere => exact absurd nowhere List.not_mem_nil
    | unchecked _ other => exact other.elim
  | case6 kind oneOf listing s =>
    rw [List.contains_iff_mem]
    refine ⟨.listed, fun h => ?_⟩
    cases h with
    | scalar => exact absurd rfl listing
    | listed member => exact member
    | unchecked _ other => exact other.elim
  | case7 kind oneOf v listing notText =>
    refine iff_of_false Bool.false_ne_true fun h => ?_
    cases h with
    | scalar => exact listing rfl
    | listed member => exact notText _ rfl
    | unchecked _ other => exact other.elim
  | case8 t v notArray notMap _ notPrimitive =>
    refine iff_of_true rfl (.unchecked v ?_)
    cases t with
    | primitive kind oneOf => exact notPrimitive kind oneOf rfl
    | array item => exact notArray item rfl
    | map slots => exact notMap slots rfl
    | _ => exact trivial

/-! ### Keys -/

variable {arguments : List Argument} {path : List String} {name : String}

theorem Governs.mem {a : Argument} (h : Governs arguments a) : a ∈ arguments := by
  obtain ⟨before, after, rfl, -⟩ := h
  exact List.mem_append_right _ List.mem_cons_self

theorem governs_iff {a : Argument} {key : String} :
    arguments.reverse.find? (·.name == key) = some a ↔ Governs arguments a ∧ a.name = key := by
  rw [List.find?_eq_some_iff_append, beq_iff_eq, and_comm]
  refine and_congr_left ?_
  rintro rfl
  constructor
  · rintro ⟨after, before, same, others⟩
    refine ⟨before.reverse, after.reverse, ?_, ?_⟩
    · rw [← List.reverse_reverse arguments, same]
      simp
    · intro b member
      simpa using others b (List.mem_reverse.1 member)
  · rintro ⟨before, after, rfl, others⟩
    refine ⟨after.reverse, before.reverse, by simp, ?_⟩
    intro b member
    simpa using others b (List.mem_reverse.1 member)

theorem mem_byName_names {key : String} :
    key ∈ (byName Argument.name arguments).map Argument.name ↔ ∃ b ∈ arguments, b.name = key := by
  have known : key ∈ (byName Argument.name arguments).map Argument.name ↔
      ((byName Argument.name arguments).find? (·.name == key)).isSome = true := by
    simp [List.find?_isSome]
  rw [known, find?_byName_eq, List.find?_isSome]
  simp

theorem slotName_iff {names : List String} {s key : String} (declared : key ∈ names) :
    Selection.slotName names [] s = key ↔ s = key ∨ s ∉ names ∧ Name.fromCamel s = key := by
  by_cases known : s ∈ names
  · simp [Selection.slotName, known]
  · have other : s ≠ key := fun same => known (same ▸ declared)
    by_cases snake : Name.fromCamel s ∈ names
    · simp [Selection.slotName, Table.get?, known, snake, other]
    · have apart : Name.fromCamel s ≠ key := fun same => snake (same ▸ declared)
      simp [Selection.slotName, Table.get?, known, snake, other, apart]

theorem resolves_iff {a : Argument} {s : String} (h : Governs arguments a) :
    Selection.slotName ((byName Argument.name arguments).map Argument.name) [] s = a.name ↔
      s = a.name ∨ (∀ b ∈ arguments, b.name ≠ s) ∧ Name.fromCamel s = a.name := by
  have declared : a.name ∈ (byName Argument.name arguments).map Argument.name :=
    mem_byName_names.2 ⟨a, h.mem, rfl⟩
  have unknown : s ∉ (byName Argument.name arguments).map Argument.name ↔
      ∀ b ∈ arguments, b.name ≠ s := by
    rw [mem_byName_names]
    simp
  rw [slotName_iff declared, unknown]

theorem declared?_iff {key : Value} {a : Argument} :
    declared? arguments key = some a ↔ Means arguments key a := by
  cases key with
  | str s =>
    rw [declared?, find?_byName_eq, governs_iff]
    constructor
    · intro ⟨governs, same⟩
      rcases (resolves_iff governs).1 same.symm with rfl | ⟨unknown, snake⟩
      · exact .verbatim governs
      · exact .snake unknown governs snake
    · intro means
      cases means with
      | verbatim governs => exact ⟨governs, ((resolves_iff governs).2 (Or.inl rfl)).symm⟩
      | snake unknown governs snake =>
        exact ⟨governs, ((resolves_iff governs).2 (Or.inr ⟨unknown, snake⟩)).symm⟩
  | _ =>
    constructor
    · nofun
    · nofun

/-! ### Entries -/

variable {done given : List (String × Value)} {before after : List (Value × Value)}
  {entry : Value × Value}

theorem problem?_eq_none {a : Argument} {v : Value} : problem? a v = none ↔ Accepts a v := by
  rw [Accepts, ← isNull_iff, ne_eq, ← isNull_iff, ← fits_iff, problem?]
  cases v.isNull <;> cases a.allowNil <;> cases fits a.type v <;> simp

theorem problem?_eq_some {a : Argument} {v : Value} {problem : String} :
    problem? a v = some problem ↔ Refuses a v problem := by
  constructor
  · intro h
    rw [problem?] at h
    split at h
    · next null =>
      obtain rfl := isNull_iff.1 null
      split at h
      · cases h
      · next refused =>
        cases h
        exact .null (eq_false_of_ne_true refused)
    · next present =>
      split at h
      · cases h
      · next misfit =>
        cases h
        exact .mismatch (mt isNull_iff.2 present) (mt fits_iff.2 misfit)
  · intro h
    cases h with
    | null refused => simp [problem?, Value.isNull, refused]
    | mismatch present misfit =>
      rw [problem?, if_neg (mt isNull_iff.1 present), if_neg (mt fits_iff.1 misfit)]

theorem any_given {key : String} : given.any (·.1 == key) = true ↔ key ∈ given.map Prod.fst := by
  simp [List.any_eq_true]

theorem Gives.take {new : String × Value} (h : Gives arguments entry new)
    (fresh : new.1 ∉ done.map Prod.fst) :
    take arguments path name done (entry :: after) =
      take arguments path name (done ++ [new]) after := by
  obtain ⟨key, v⟩ := entry
  obtain ⟨a, means, accepts, rfl⟩ := h
  rw [Arguments.take, declared?_iff.2 means]
  simp only
  rw [if_neg (mt any_given.1 fresh), problem?_eq_none.2 accepts]

theorem Offends.take {problem named : String} (h : Offends arguments done entry problem named) :
    take arguments path name done (entry :: after) =
      invalid path name [("problem", problem), ("argument", named)] := by
  cases h with
  | @unknown key v nothing =>
    have none : declared? arguments key = none := by
      rw [Option.eq_none_iff_forall_ne_some]
      exact fun a found => nothing a (declared?_iff.1 found)
    rw [Arguments.take, none]
  | repeated means old =>
    rw [Arguments.take, declared?_iff.2 means]
    simp only
    rw [if_pos (any_given.2 old)]
  | refused means fresh refuses =>
    rw [Arguments.take, declared?_iff.2 means]
    simp only
    rw [if_neg (mt any_given.1 fresh), problem?_eq_some.2 refuses]

theorem gives_or_offends (arguments : List Argument) (done : List (String × Value))
    (entry : Value × Value) :
    (∃ new, Gives arguments entry new ∧ new.1 ∉ done.map Prod.fst) ∨
      ∃ problem named, Offends arguments done entry problem named := by
  obtain ⟨key, v⟩ := entry
  cases found : declared? arguments key with
  | none =>
    refine Or.inr ⟨_, _, .unknown fun a means => ?_⟩
    rw [declared?_iff.2 means] at found
    cases found
  | some a =>
    have means := declared?_iff.1 found
    by_cases old : a.name ∈ done.map Prod.fst
    · exact Or.inr ⟨_, _, .repeated means old⟩
    · cases checked : problem? a v with
      | none => exact Or.inl ⟨_, ⟨a, means, problem?_eq_none.1 checked, rfl⟩, old⟩
      | some problem => exact Or.inr ⟨_, _, .refused means old (problem?_eq_some.1 checked)⟩

theorem take_append {more : List (String × Value)}
    (each : List.Forall₂ (Gives arguments) before more)
    (distinct : ((done ++ more).map Prod.fst).Nodup) :
    take arguments path name done (before ++ after) =
      take arguments path name (done ++ more) after := by
  induction each generalizing done with
  | nil => rw [List.append_nil, List.nil_append]
  | @cons entry new before more gives rest ih =>
    rw [List.append_cons] at distinct ⊢
    have fresh : new.1 ∉ done.map Prod.fst := by
      intro old
      rw [List.append_assoc, List.map_append] at distinct
      exact List.disjoint_of_nodup_append distinct old List.mem_cons_self
    rw [List.cons_append, gives.take fresh, ih distinct]

theorem Taken.take (h : Taken arguments before given) :
    take arguments path name [] (before ++ after) = take arguments path name given after :=
  take_append h.each h.distinct

theorem taken_or_offends (arguments : List Argument) (entries : List (Value × Value)) :
    (∃ given, Taken arguments entries given) ∨
      ∃ before entry after given problem named, entries = before ++ entry :: after ∧
        Taken arguments before given ∧ Offends arguments given entry problem named := by
  induction entries using List.reverseRecOn with
  | nil => exact Or.inl ⟨[], .nil, List.nodup_nil⟩
  | append_singleton entries entry ih =>
    rcases ih with ⟨given, taken⟩ | ⟨before, first, after, given, problem, named, rfl, offends⟩
    · rcases gives_or_offends arguments given entry with ⟨new, gives, fresh⟩ | ⟨problem, named, h⟩
      · refine Or.inl ⟨given ++ [new], List.rel_append taken.each (.cons gives .nil), ?_⟩
        rw [List.map_append, List.map_singleton, List.nodup_append']
        refine ⟨taken.distinct, List.nodup_singleton _, ?_⟩
        exact List.disjoint_singleton.2 fresh
      · exact Or.inr ⟨entries, entry, [], given, problem, named, rfl, taken, h⟩
    · refine Or.inr ⟨before, first, after ++ [entry], given, problem, named, ?_, offends⟩
      rw [List.append_assoc, List.cons_append]

/-! ### The whole object -/

theorem missing_iff {a : Argument} :
    (!(given.any (·.1 == a.name)) && a.isRequired) = true ↔ Missing given a := by
  rw [Bool.and_eq_true, Bool.not_eq_true', ← Bool.not_eq_true, any_given, and_comm, Missing]

theorem Taken.resolve {entries : List (Value × Value)} (h : Taken arguments entries given) :
    resolve arguments path name (.mapping entries) =
      match arguments.find? fun a => !(given.any (·.1 == a.name)) && a.isRequired with
      | some a =>
        invalid path name [("problem", "missing required argument"), ("argument", a.name)]
      | none => .ok given := by
  have taken : Arguments.take arguments path name [] entries = .ok given := by
    rw [← List.append_nil entries, h.take, Arguments.take]
  rw [Arguments.resolve, taken]
  rfl

theorem Blames.resolve {raw : Value} {detail : List (String × String)}
    (h : Blames arguments raw detail) :
    resolve arguments path name raw = invalid path name detail := by
  cases h with
  | shape other => exact Arguments.resolve.eq_2 _ _ _ _ other
  | entry taken offends =>
    rw [Arguments.resolve, taken.take, offends.take]
    rfl
  | @missing entries given before after a taken declared missing others =>
    have first : (arguments.find? fun a => !(given.any (·.1 == a.name)) && a.isRequired) = some a := by
      rw [List.find?_eq_some_iff_append, missing_iff]
      refine ⟨missing, before, after, declared, fun b member => ?_⟩
      rw [Bool.not_eq_true', ← Bool.not_eq_true, missing_iff]
      exact others b member
    rw [taken.resolve, first]

theorem Taken.resolve_complete {entries : List (Value × Value)} (h : Taken arguments entries given)
    (complete : ∀ a ∈ arguments, ¬Missing given a) :
    Arguments.resolve arguments path name (.mapping entries) = .ok given := by
  have none : (arguments.find? fun a => !(given.any (·.1 == a.name)) && a.isRequired) = none := by
    rw [List.find?_eq_none]
    exact fun a member => mt missing_iff.1 (complete a member)
  rw [h.resolve, none]

theorem blames_or_taken (arguments : List Argument) (raw : Value) :
    (∃ detail, Blames arguments raw detail) ∨ ∃ entries given, raw = .mapping entries ∧
      Taken arguments entries given ∧ ∀ a ∈ arguments, ¬Missing given a := by
  by_cases shape : ∃ entries, raw = .mapping entries
  · obtain ⟨entries, rfl⟩ := shape
    rcases taken_or_offends arguments entries with ⟨given, taken⟩ | offence
    · cases first : arguments.find? fun a => !(given.any (·.1 == a.name)) && a.isRequired with
      | none =>
        refine Or.inr ⟨entries, given, rfl, taken, fun a member missing => ?_⟩
        exact List.find?_eq_none.1 first a member (missing_iff.2 missing)
      | some a =>
        obtain ⟨missing, before, after, declared, others⟩ := List.find?_eq_some_iff_append.1 first
        refine Or.inl ⟨_, .missing taken declared (missing_iff.1 missing) fun b member left => ?_⟩
        have kept := others b member
        rw [missing_iff.2 left] at kept
        cases kept
    · obtain ⟨before, entry, after, given, problem, named, rfl, taken, offends⟩ := offence
      exact Or.inl ⟨_, .entry taken offends⟩
  · exact Or.inl ⟨_, .shape fun entries same => shape ⟨entries, same⟩⟩

/-- Arguments are resolved exactly. All of the object is taken just if every key means an argument
that accepts the value, no two mean the same and all required ones are meant; what is given then
are the values in order, each under the declared name. Otherwise the rejection blames the first
entry that offends, and without one the first required argument that is left out. -/
theorem resolve_exact (arguments : List Argument) (path : List String) (name : String)
    (raw : Value) :
    (∀ given, resolve arguments path name raw = .ok given ↔ ∃ entries, raw = .mapping entries ∧
      Taken arguments entries given ∧ ∀ a ∈ arguments, ¬Missing given a) ∧
    ∀ failure, resolve arguments path name raw = .error failure ↔ ∃ detail,
      Blames arguments raw detail ∧ failure = .rejected ⟨.invalidCalculationArgs, path, some name,
        detail.map fun entry => (entry.1, .str entry.2)⟩ := by
  refine Outcome.settled ?_ ?_ ?_
  · intro given ⟨entries, same, taken, complete⟩
    rw [same]
    exact taken.resolve_complete complete
  · intro failure ⟨detail, blames, same⟩
    rw [same]
    exact blames.resolve
  · rcases blames_or_taken arguments raw with ⟨detail, blames⟩ | ⟨entries, given, accepted⟩
    · exact Or.inr ⟨_, detail, blames, rfl⟩
    · exact Or.inl ⟨given, entries, accepted⟩

end Arguments
end FieldPlan
