import FieldPlan.Proofs.Reading
import Mathlib.Data.List.Induction
import Mathlib.Data.List.Nodup

/-! What turns a level down. Its elements are looked at one by one, in each first the shape and the
keys and then whether a name has come before; so the first element with anything wrong decides, and
in it what is malformed before what is asked for again. -/
namespace FieldPlan

theorem forall_or_first {α : Type} (p : α → Prop) (items : List α) :
    (∀ a ∈ items, p a) ∨ ∃ before a after, items = before ++ a :: after ∧
      (∀ b ∈ before, p b) ∧ ¬p a := by
  induction items using List.reverseRecOn with
  | nil => exact Or.inl nofun
  | append_singleton items last ih =>
    rcases ih with all | ⟨before, a, after, rfl, others, wrong⟩
    · by_cases good : p last
      · exact Or.inl (List.forall_mem_append.2 ⟨all, List.forall_mem_singleton.2 good⟩)
      · exact Or.inr ⟨items, last, [], rfl, all, good⟩
    · refine Or.inr ⟨before, a, after ++ [last], ?_, others, wrong⟩
      rw [List.append_assoc, List.cons_append]

theorem nodup_or_repeated {α β : Type} (f : α → β) {seen : List β} (distinct : seen.Nodup)
    (items : List α) : (seen ++ items.map f).Nodup ∨ ∃ before a after,
      items = before ++ a :: after ∧ (seen ++ before.map f).Nodup ∧ f a ∈ seen ++ before.map f := by
  induction items using List.reverseRecOn with
  | nil =>
    rw [List.map_nil, List.append_nil]
    exact Or.inl distinct
  | append_singleton items last ih =>
    rcases ih with fresh | ⟨before, a, after, rfl, others, again⟩
    · by_cases old : f last ∈ seen ++ items.map f
      · exact Or.inr ⟨items, last, [], rfl, fresh, old⟩
      · refine Or.inl ?_
        rw [List.map_append, List.map_singleton, ← List.append_assoc, List.nodup_append']
        exact ⟨fresh, List.nodup_singleton _, List.disjoint_singleton.2 old⟩
    · refine Or.inr ⟨before, a, after ++ [last], ?_, others, again⟩
      rw [List.append_assoc, List.cons_append]

/-- Where one of the two descriptions always applies, each applies just to its outcome. -/
theorem Outcome.settled {α : Type} {x : Outcome α} {good : α → Prop} {bad : Failure → Prop}
    (accepts : ∀ a, good a → x = .ok a) (fails : ∀ failure, bad failure → x = .error failure)
    (total : (∃ a, good a) ∨ ∃ failure, bad failure) :
    (∀ a, x = .ok a ↔ good a) ∧ ∀ failure, x = .error failure ↔ bad failure := by
  rcases total with ⟨a, held⟩ | ⟨failure, held⟩
  · have outcome := accepts a held
    refine ⟨fun b => ⟨fun h => ?_, accepts b⟩, fun failure => ⟨fun h => ?_, fails failure⟩⟩
    · rw [outcome] at h
      cases h
      exact held
    · rw [outcome] at h
      cases h
  · have outcome := fails failure held
    refine ⟨fun b => ⟨fun h => ?_, accepts b⟩, fun other => ⟨fun h => ?_, fails other⟩⟩
    · rw [outcome] at h
      cases h
    · rw [outcome] at h
      cases h
      exact held

namespace Selection

def IsName (v : Value) : Prop := ∃ s, v = .str s ∧ s ≠ ""

/-- What is wrong in an element: it has no shape that asks for names, or one of its keys is no
name. -/
inductive Malformed : Value → Value → Prop
  | shape {element : Value} : requests? element = none → Malformed element element
  | key {element bad : Value} {request : Request} {before after : List (Value × Request)} :
      requests? element = some (before ++ (bad, request) :: after) →
      (∀ asked ∈ before, IsName asked.1) → ¬IsName bad → Malformed element bad

def fieldNames (resolve : String → String) (fields : List Value) : List String :=
  (entriesOf resolve fields).map Entry.name

/-- What turns a level down: the elements before are well formed and their names distinct, and the
next one is malformed or has a name that came before, in it or in them. -/
inductive Faulty (resolve : String → String) (path : List String) : List Value → Rejection → Prop
  | malformed {before after : List Value} {element bad : Value} : WellFormed before →
      (fieldNames resolve before).Nodup → Malformed element bad →
      Faulty resolve path (before ++ element :: after)
        ⟨.invalidFieldType, path, none, [("value", .str bad.literal)]⟩
  | repeated {before after : List Value} {element : Value} {earlier later : List (String × Request)}
      {again : String × Request} : WellFormed before → Asks element (earlier ++ again :: later) →
      (fieldNames resolve before ++ earlier.map fun n => resolve n.1).Nodup →
      resolve again.1 ∈ fieldNames resolve before ++ earlier.map (fun n => resolve n.1) →
      Faulty resolve path (before ++ element :: after)
        ⟨.duplicateField, path ++ [resolve again.1], some (resolve again.1), []⟩

variable {resolve : String → String} {path seen : List String} {element bad : Value}
  {fields before after : List Value} {failure : Failure} {r : Rejection}

/-! ### Malformed elements -/

theorem requireName_malformed (h : ¬IsName bad) :
    requireName path bad = (malformed path bad : Outcome String) := by
  cases bad with
  | str s =>
    have empty : s = "" := by
      by_contra present
      exact h ⟨s, rfl, present⟩
    subst empty
    rfl
  | _ => rfl

theorem requireNames_malformed {before after : List (Value × Request)} {request : Request}
    (named : ∀ asked ∈ before, IsName asked.1) (h : ¬IsName bad) :
    (before ++ (bad, request) :: after).mapM
        (fun r => (requireName path r.1).map fun name => (name, r.2)) =
      (malformed path bad : Outcome (List (String × Request))) := by
  induction before with
  | nil =>
    rw [List.nil_append, List.mapM_cons, requireName_malformed h]
    rfl
  | cons first before ih =>
    obtain ⟨⟨s, key, present⟩, others⟩ := List.forall_mem_cons.1 named
    rw [List.cons_append, List.mapM_cons, requireName_ok.2 ⟨key, present⟩, ih others]
    rfl

theorem Malformed.elementNames (h : Malformed element bad) :
    elementNames path element = malformed path bad := by
  cases h with
  | shape unshaped => rw [Selection.elementNames, unshaped]
  | key found named wrong =>
    rw [Selection.elementNames, found]
    exact requireNames_malformed named wrong

theorem exists_names {requests : List (Value × Request)} (h : ∀ asked ∈ requests, IsName asked.1) :
    ∃ names : List (String × Request), requests = names.map (fun n => (.str n.1, n.2)) ∧
      ∀ n ∈ names, n.1 ≠ "" := by
  induction requests with
  | nil => exact ⟨[], rfl, nofun⟩
  | cons first rest ih =>
    obtain ⟨⟨s, key, present⟩, others⟩ := List.forall_mem_cons.1 h
    obtain ⟨names, rfl, named⟩ := ih others
    refine ⟨(s, first.2) :: names, ?_, List.forall_mem_cons.2 ⟨present, named⟩⟩
    rw [List.map_cons, ← key]

theorem asks_or_malformed (element : Value) :
    (∃ names, Asks element names) ∨ ∃ bad, Malformed element bad := by
  cases found : requests? element with
  | none => exact Or.inr ⟨element, .shape found⟩
  | some requests =>
    rcases forall_or_first (fun asked => IsName asked.1) requests with
      all | ⟨before, ⟨bad, request⟩, after, rfl, others, wrong⟩
    · obtain ⟨names, rfl, named⟩ := exists_names all
      exact Or.inl ⟨names, found, named⟩
    · exact Or.inr ⟨bad, .key found others wrong⟩

/-! ### Names that come again -/

def entryOf (resolve : String → String) (n : String × Request) : Entry := ⟨n.1, resolve n.1, n.2⟩

theorem enrol_repeated {earlier later : List (String × Request)} {again : String × Request}
    (fresh : Fresh seen (earlier.map (entryOf resolve)))
    (old : resolve again.1 ∈ seen ∨ resolve again.1 ∈ earlier.map fun n => resolve n.1) :
    enrol resolve path seen (earlier ++ again :: later) =
      reject .duplicateField (path ++ [resolve again.1]) (some (resolve again.1)) [] := by
  induction earlier generalizing seen with
  | nil =>
    have present := old.resolve_right List.not_mem_nil
    rw [List.nil_append, enrol, if_pos (List.contains_iff_mem.2 present)]
  | cons first earlier ih =>
    have known : resolve first.1 ∉ seen ∧
        Fresh (resolve first.1 :: seen) (earlier.map (entryOf resolve)) := fresh_cons.1 fresh
    obtain ⟨unseen, fresh⟩ := known
    have later : resolve again.1 ∈ resolve first.1 :: seen ∨
        resolve again.1 ∈ earlier.map fun n => resolve n.1 := by
      rw [List.map_cons, List.mem_cons] at old
      rw [List.mem_cons]
      tauto
    rw [List.cons_append, enrol, if_neg (mt List.contains_iff_mem.1 unseen), ih fresh later]
    rfl

/-! ### Levels -/

theorem readFrom_append_error (formed : WellFormed before)
    (fresh : Fresh seen (entriesOf resolve before))
    (h : readFrom resolve path ((fieldNames resolve before).reverse ++ seen) after =
      .error failure) : readFrom resolve path seen (before ++ after) = .error failure := by
  induction before generalizing seen with
  | nil => exact h
  | cons element before ih =>
    obtain ⟨⟨names, asks⟩, formed⟩ := List.forall_mem_cons.1 formed
    rw [entriesOf_cons resolve before asks] at fresh
    obtain ⟨first, fresh⟩ := fresh_append.1 fresh
    rw [fieldNames, entriesOf_cons resolve before asks, List.map_append, List.reverse_append,
      List.append_assoc] at h
    rw [List.cons_append, readFrom, elementNames_ok.2 asks]
    change (enrol resolve path seen names >>= _) = _
    rw [enrol_ok.2 ⟨rfl, first⟩]
    change (readFrom resolve path _ (before ++ after) >>= _) = _
    rw [ih formed fresh h]
    rfl

theorem fresh_start {entries : List Entry} : Fresh [] entries ↔ (entries.map Entry.name).Nodup := by
  simp [Fresh]

theorem Faulty.read (h : Faulty resolve path fields r) :
    read resolve path fields = .error (.rejected r) := by
  cases h with
  | malformed formed distinct wrong =>
    refine readFrom_append_error formed (fresh_start.2 distinct) ?_
    rw [readFrom, wrong.elementNames]
    rfl
  | @repeated before after element earlier later again formed asks distinct old =>
    have fresh : Fresh [] (entriesOf resolve before ++ earlier.map (entryOf resolve)) := by
      rw [fresh_start, List.map_append, List.map_map]
      exact distinct
    obtain ⟨first, others⟩ := fresh_append.1 fresh
    have held : resolve again.1 ∈ (fieldNames resolve before).reverse ++ [] ∨
        resolve again.1 ∈ earlier.map fun n => resolve n.1 := by
      rwa [List.append_nil, List.mem_reverse, ← List.mem_append]
    have rejected : enrol resolve path ((fieldNames resolve before).reverse ++ [])
        (earlier ++ again :: later) =
          reject .duplicateField (path ++ [resolve again.1]) (some (resolve again.1)) [] :=
      enrol_repeated others held
    refine readFrom_append_error formed first ?_
    rw [readFrom, elementNames_ok.2 asks]
    change (enrol resolve path _ (earlier ++ again :: later) >>= _) = _
    rw [rejected]
    rfl

theorem Faulty.append (h : Faulty resolve path fields r) (more : List Value) :
    Faulty resolve path (fields ++ more) r := by
  cases h with
  | malformed formed distinct wrong =>
    rw [List.append_assoc, List.cons_append]
    exact .malformed formed distinct wrong
  | repeated formed asks distinct old =>
    rw [List.append_assoc, List.cons_append]
    exact .repeated formed asks distinct old

theorem fieldNames_concat {names : List (String × Request)} (asks : Asks element names) :
    fieldNames resolve (fields ++ [element]) =
      fieldNames resolve fields ++ names.map fun n => resolve n.1 := by
  have last : entriesOf resolve [element] = names.map (entryOf resolve) := by
    rw [entriesOf_cons resolve [] asks]
    exact List.append_nil _
  rw [fieldNames, entriesOf_append, last, List.map_append, List.map_map]
  rfl

theorem formed_or_faulty (resolve : String → String) (path : List String) (fields : List Value) :
    WellFormed fields ∧ (fieldNames resolve fields).Nodup ∨ ∃ r, Faulty resolve path fields r := by
  induction fields using List.reverseRecOn with
  | nil => exact Or.inl ⟨nofun, List.nodup_nil⟩
  | append_singleton fields element ih =>
    rcases ih with ⟨formed, distinct⟩ | ⟨r, faulty⟩
    · rcases asks_or_malformed element with ⟨names, asks⟩ | ⟨bad, wrong⟩
      · rcases nodup_or_repeated (fun n => resolve n.1) distinct names with
          fresh | ⟨earlier, again, later, rfl, fresh, old⟩
        · refine Or.inl ⟨List.forall_mem_append.2 ⟨formed, ?_⟩, ?_⟩
          · exact List.forall_mem_singleton.2 ⟨names, asks⟩
          · rw [fieldNames_concat asks]
            exact fresh
        · exact Or.inr ⟨_, .repeated formed asks fresh old⟩
      · exact Or.inr ⟨_, .malformed formed distinct wrong⟩
    · exact Or.inr ⟨r, faulty.append [element]⟩

/-- A level that is not read is rejected for the first thing that turns it down. -/
theorem read_error_iff : read resolve path fields = .error failure ↔
    ∃ r, failure = .rejected r ∧ Faulty resolve path fields r := by
  have accepts : ∀ entries, WellFormed fields ∧ entries = entriesOf resolve fields ∧
      (entries.map Entry.name).Nodup → read resolve path fields = .ok entries :=
    fun _ => read_ok_iff.2
  have fails : ∀ failure, (∃ r, failure = .rejected r ∧ Faulty resolve path fields r) →
      read resolve path fields = .error failure := by
    intro failure ⟨r, same, faulty⟩
    rw [same, faulty.read]
  refine (Outcome.settled accepts fails ?_).2 failure
  rcases formed_or_faulty resolve path fields with ⟨formed, distinct⟩ | ⟨r, faulty⟩
  · exact Or.inl ⟨_, formed, rfl, distinct⟩
  · exact Or.inr ⟨_, r, rfl, faulty⟩

end Selection
end FieldPlan
