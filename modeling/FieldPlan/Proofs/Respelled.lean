import FieldPlan.Proofs.Site
import FieldPlan.Proofs.Reading
import Mathlib.Data.List.Forall2

/-! Selections that are spelled differently. The two have the same shape, and at every level
corresponding names stand for the same declared name. What is called and what is derived may
be asked for by an object, whose keys are no names: these have to stay, and so has every
argument but for the spelling of its name. -/
namespace FieldPlan
variable {c : Catalog}

/-! ### The relation -/

namespace Arguments

inductive Respelled (arguments : List Argument) : Value → Value → Prop
  | same (v : Value) : Respelled arguments v v
  | mapping {given given' : List (Value × Value)}
      (entries : List.Forall₂
        (fun a b => declared? arguments b.1 = declared? arguments a.1 ∧ b.2 = a.2) given given') :
      Respelled arguments (.mapping given) (.mapping given')

end Arguments

namespace Site

def calculation? (c : Catalog) (s : Site) (name : String) : Option Calculation :=
  match s with
  | .record resource => (c.resource? resource).bind fun r => r.calculation? name
  | _ => none

/-- Where a name is asked for by an object, the objects agree but for the names in them. -/
inductive SameForm (c : Catalog) (s : Site) (name : String) (v w : Value) : Prop
  | called (kind : s.kind c name = .calculationWithArgs)
      (form : Arguments.isArgsForm w = Arguments.isArgsForm v)
      (args : ∀ calculation, s.calculation? c name = some calculation →
        Arguments.Respelled calculation.arguments ((v.get? Arguments.argsKey).getD .null)
          ((w.get? Arguments.argsKey).getD .null))
  | derived (kind : s.kind c name = .calculationComplex ∨ s.kind c name = .complexAggregate)
      (fields : (w.get? Arguments.fieldsKey).isSome = (v.get? Arguments.fieldsKey).isSome)
      (args : (v.get? Arguments.fieldsKey).isSome = true →
        (w.get? Arguments.argsKey).isSome = (v.get? Arguments.argsKey).isSome)
  | other (called : s.kind c name ≠ .calculationWithArgs)
      (derived : s.kind c name ≠ .calculationComplex)
      (derived' : s.kind c name ≠ .complexAggregate)

end Site

mutual
/-- Two selections at one site that ask for the same in different words. -/
inductive Respelled (c : Catalog) : Site → Value → Value → Prop
  | same (s : Site) (v : Value) : Respelled c s v v
  | level {s : Site} {fields fields' : List Value}
      (elements : RespelledElements c s fields fields') : Respelled c s (.list fields) (.list fields')
  | lone {s : Site} {mapping mapping' : List (Value × Value)}
      (entries : RespelledEntries c s mapping mapping') :
      Respelled c s (.mapping mapping) (.mapping mapping')

/-- Names for names, mappings for mappings and pairs for pairs. -/
inductive RespelledElements (c : Catalog) : Site → List Value → List Value → Prop
  | nil (s : Site) : RespelledElements c s [] []
  | name {s : Site} {a b : String} {fields fields' : List Value} (named : b ≠ "")
      (same : s.resolve c b = s.resolve c a) (rest : RespelledElements c s fields fields') :
      RespelledElements c s (.str a :: fields) (.str b :: fields')
  | mapping {s : Site} {mapping mapping' : List (Value × Value)} {fields fields' : List Value}
      (entries : RespelledEntries c s mapping mapping')
      (rest : RespelledElements c s fields fields') :
      RespelledElements c s (.mapping mapping :: fields) (.mapping mapping' :: fields')
  | pair {s : Site} {key key' v w : Value} {fields fields' : List Value}
      (entry : RespelledEntries c s [(key, v)] [(key', w)])
      (rest : RespelledElements c s fields fields') :
      RespelledElements c s (.tuple [key, v] :: fields) (.tuple [key', w] :: fields')

/-- Below corresponding names the selections are again at one site. -/
inductive RespelledEntries (c : Catalog) :
    Site → List (Value × Value) → List (Value × Value) → Prop
  | nil (s : Site) : RespelledEntries c s [] []
  | cons {s : Site} {a b : String} {v w : Value} {rest rest' : List (Value × Value)}
      (named : b ≠ "") (same : s.resolve c b = s.resolve c a)
      (form : s.SameForm c (s.resolve c a) v w)
      (below : ∀ t, s.under c (s.resolve c a) = some t →
        Respelled c t (s.given c (s.resolve c a) v) (s.given c (s.resolve c a) w))
      (others : RespelledEntries c s rest rest') :
      RespelledEntries c s ((.str a, v) :: rest) ((.str b, w) :: rest')
end

/-! ### Requests -/

/-- What two selections under one declared name have in common. -/
structure RespelledUnder (c : Catalog) (s : Site) (name : String) (v w : Value) : Prop where
  form : s.SameForm c name v w
  below : ∀ t, s.under c name = some t → Respelled c t (s.given c name v) (s.given c name w)

theorem Site.SameForm.refl (c : Catalog) (s : Site) (name : String) (v : Value) :
    s.SameForm c name v v := by
  cases kind : s.kind c name with
  | calculationWithArgs => exact .called kind rfl fun _ _ => .same _
  | calculationComplex => exact .derived (.inl kind) rfl fun _ => rfl
  | complexAggregate => exact .derived (.inr kind) rfl fun _ => rfl
  | _ => exact .other (by simp [kind]) (by simp [kind]) (by simp [kind])

theorem RespelledUnder.refl (c : Catalog) (s : Site) (name : String) (v : Value) :
    RespelledUnder c s name v v :=
  ⟨.refl c s name v, fun _ _ => .same _ _⟩

inductive Request.Alike (nested : Value → Value → Prop) : Request → Request → Prop
  | bare : Alike nested .bare .bare
  | keyed {v w : Value} (h : nested v w) : Alike nested (.keyed v) (.keyed w)
  | paired {v w : Value} (h : nested v w) : Alike nested (.paired v) (.paired w)

namespace Request
variable {nested : Value → Value → Prop} {a b : Request}

theorem Alike.refl (reflexive : ∀ v, nested v v) (a : Request) : Alike nested a a := by
  cases a with
  | bare => exact .bare
  | keyed v => exact .keyed (reflexive v)
  | paired v => exact .paired (reflexive v)

theorem Alike.none (alike : Alike nested a b) (h : a.nested? = none) : b.nested? = none := by
  cases alike with
  | bare => rfl
  | keyed => cases h
  | paired => cases h

theorem Alike.some (alike : Alike nested a b) {v : Value} (h : a.nested? = some v) :
    ∃ w, b.nested? = some w ∧ nested v w := by
  cases alike with
  | bare => cases h
  | keyed below =>
    cases h
    exact ⟨_, rfl, below⟩
  | paired below =>
    cases h
    exact ⟨_, rfl, below⟩

end Request

/-- Two names of a level, each with how it is asked for. -/
structure RespelledName (c : Catalog) (s : Site) (a b : String × Request) : Prop where
  named : b.1 ≠ ""
  same : s.resolve c b.1 = s.resolve c a.1
  request : Request.Alike (RespelledUnder c s (s.resolve c a.1)) a.2 b.2

theorem RespelledName.refl {s : Site} {a : String × Request} (named : a.1 ≠ "") :
    RespelledName c s a a :=
  ⟨named, rfl, .refl (RespelledUnder.refl c s _) a.2⟩

/-- Entries for one declared name, whatever they were spelled like. -/
structure Entry.Respelled (c : Catalog) (s : Site) (a b : Entry) : Prop where
  name : b.name = a.name
  request : Request.Alike (RespelledUnder c s a.name) a.request b.request

namespace Selection
variable {s : Site}

theorem Asks.unique {element : Value} {names names' : List (String × Request)}
    (asks : Asks element names)
    (shape : requests? element = some (names'.map fun n => (.str n.1, n.2))) : names = names' := by
  have injective : Function.Injective fun n : String × Request => (Value.str n.1, n.2) := by
    rintro ⟨a, x⟩ ⟨b, y⟩ same
    simpa using same
  exact List.map_injective_iff.2 injective (Option.some.inj (asks.1.symm.trans shape))

theorem asks_entries {mapping mapping' : List (Value × Value)}
    (entries : RespelledEntries c s mapping mapping') {way : Value → Request}
    (alike : ∀ {nested : Value → Value → Prop} {v w : Value}, nested v w →
      Request.Alike nested (way v) (way w)) :
    ∃ names names', List.Forall₂ (RespelledName c s) names names' ∧
      mapping.map (fun entry => (entry.1, way entry.2)) = names.map (fun n => (.str n.1, n.2)) ∧
      mapping'.map (fun entry => (entry.1, way entry.2)) = names'.map (fun n => (.str n.1, n.2)) := by
  induction mapping generalizing mapping' with
  | nil =>
    cases entries
    exact ⟨[], [], .nil, rfl, rfl⟩
  | cons entry rest ih =>
    cases entries with
    | cons named same form below others =>
      rename_i a b v w rest'
      obtain ⟨names, names', each, first, second⟩ := ih others
      refine ⟨(a, way v) :: names, (b, way w) :: names', .cons ⟨named, same, ?_⟩ each, ?_, ?_⟩
      · exact alike ⟨form, below⟩
      · rw [List.map_cons, first, List.map_cons]
      · rw [List.map_cons, second, List.map_cons]

private theorem forall₂_named {names names' : List (String × Request)}
    (each : List.Forall₂ (RespelledName c s) names names') : ∀ n ∈ names', n.1 ≠ "" := by
  induction each with
  | nil => exact fun _ absent => absurd absent List.not_mem_nil
  | cons alike _ ih => exact List.forall_mem_cons.2 ⟨alike.named, ih⟩

theorem elements_cons {element : Value} {fields others : List Value}
    (h : RespelledElements c s (element :: fields) others) :
    ∃ element' fields', others = element' :: fields' ∧ RespelledElements c s fields fields' ∧
      ∀ names, Asks element names →
        ∃ names', Asks element' names' ∧ List.Forall₂ (RespelledName c s) names names' := by
  cases h with
  | name named same rest =>
    rename_i a b fields'
    refine ⟨_, _, rfl, rest, ?_⟩
    intro names asks
    have shape : requests? (.str a) =
        some ([(a, Request.bare)].map fun n => (Value.str n.1, n.2)) := rfl
    obtain rfl := asks.unique shape
    refine ⟨[(b, .bare)], ⟨rfl, by simpa using named⟩, .cons ⟨named, same, .bare⟩ .nil⟩
  | mapping entries rest =>
    refine ⟨_, _, rfl, rest, ?_⟩
    intro names asks
    obtain ⟨names₀, names', each, first, second⟩ := asks_entries entries .keyed
    obtain rfl := asks.unique (congrArg some first)
    exact ⟨names', ⟨congrArg some second, forall₂_named each⟩, each⟩
  | pair entry rest =>
    refine ⟨_, _, rfl, rest, ?_⟩
    intro names asks
    obtain ⟨names₀, names', each, first, second⟩ := asks_entries entry .paired
    obtain rfl := asks.unique (congrArg some first)
    exact ⟨names', ⟨congrArg some second, forall₂_named each⟩, each⟩

def readAs (resolve : String → String) (n : String × Request) : Entry := ⟨n.1, resolve n.1, n.2⟩

/-- The levels ask for names one for one, whatever these are resolved with. -/
structure RespelledLevels (c : Catalog) (s : Site) (fields fields' : List Value) : Prop where
  formed : WellFormed fields'
  names : ∃ names names', List.Forall₂ (RespelledName c s) names names' ∧
    (∀ resolve, entriesOf resolve fields = names.map (readAs resolve)) ∧
    ∀ resolve, entriesOf resolve fields' = names'.map (readAs resolve)

theorem RespelledLevels.nil (c : Catalog) (s : Site) : RespelledLevels c s [] [] :=
  ⟨fun _ absent => absurd absent List.not_mem_nil, [], [], .nil, fun _ => rfl, fun _ => rfl⟩

theorem RespelledLevels.cons {element element' : Value} {fields fields' : List Value}
    {names names' : List (String × Request)} (asks : Asks element names)
    (asks' : Asks element' names') (each : List.Forall₂ (RespelledName c s) names names')
    (rest : RespelledLevels c s fields fields') :
    RespelledLevels c s (element :: fields) (element' :: fields') := by
  obtain ⟨formed, more, more', others, first, second⟩ := rest
  refine ⟨List.forall_mem_cons.2 ⟨⟨names', asks'⟩, formed⟩, names ++ more, names' ++ more',
    List.rel_append each others, ?_, ?_⟩
  · intro resolve
    rw [entriesOf_cons resolve fields asks, first, List.map_append]
    rfl
  · intro resolve
    rw [entriesOf_cons resolve fields' asks', second, List.map_append]
    rfl

theorem RespelledLevels.refl {fields : List Value} (formed : WellFormed fields) :
    RespelledLevels c s fields fields := by
  induction fields with
  | nil => exact .nil c s
  | cons element rest ih =>
    obtain ⟨⟨names, asks⟩, formed⟩ := List.forall_mem_cons.1 formed
    refine .cons asks asks (List.forall₂_same.2 ?_) (ih formed)
    exact fun n member => .refl (asks.2 n member)

theorem levels_of_elements {fields fields' : List Value} (formed : WellFormed fields)
    (elements : RespelledElements c s fields fields') : RespelledLevels c s fields fields' := by
  induction fields generalizing fields' with
  | nil =>
    cases elements
    exact .nil c s
  | cons element rest ih =>
    obtain ⟨⟨names, asks⟩, formed⟩ := List.forall_mem_cons.1 formed
    obtain ⟨element', rest', rfl, others, asked⟩ := elements_cons elements
    obtain ⟨names', asks', each⟩ := asked names asks
    exact .cons asks asks' each (ih formed others)

theorem levels_of_respelled {fields : List Value} {v : Value} (formed : WellFormed fields)
    (alike : Respelled c s (.list fields) v) :
    ∃ fields', v = .list fields' ∧ RespelledLevels c s fields fields' := by
  cases alike with
  -- elements of the same list may have any shape, but these are well-formed
  | same => exact ⟨fields, rfl, .refl formed⟩
  | level elements => exact ⟨_, rfl, levels_of_elements formed elements⟩

/-! ### Reading -/

variable {path : List String}

private theorem forall₂_names {entries entries' : List Entry}
    (each : List.Forall₂ (Entry.Respelled c s) entries entries') :
    entries'.map Entry.name = entries.map Entry.name := by
  induction each with
  | nil => rfl
  | cons alike _ ih => rw [List.map_cons, List.map_cons, alike.name, ih]

theorem read_respelled {fields : List Value} {v : Value} {entries : List Entry}
    (alike : Respelled c s (.list fields) v)
    (h : read (s.resolve c) path fields = .ok entries) :
    ∃ fields' entries', v = .list fields' ∧ read (s.resolve c) path fields' = .ok entries' ∧
      List.Forall₂ (Entry.Respelled c s) entries entries' := by
  obtain ⟨formed, rfl, distinct⟩ := read_ok_iff.1 h
  obtain ⟨fields', rfl, formed', names, names', each, first, second⟩ :=
    levels_of_respelled formed alike
  have related : List.Forall₂ (Entry.Respelled c s) (names.map (readAs (s.resolve c)))
      (names'.map (readAs (s.resolve c))) := by
    rw [List.forall₂_map_left_iff, List.forall₂_map_right_iff]
    exact each.imp fun _ _ one => ⟨one.same, one.request⟩
  rw [first] at distinct ⊢
  rw [← forall₂_names related] at distinct
  exact ⟨fields', _, rfl, read_ok_iff.2 ⟨formed', (second _).symm, distinct⟩, related⟩

theorem read_nothing {resolve : String → String} {fields : List Value} {v : Value}
    (alike : Respelled c s (.list fields) v) (h : read resolve path fields = .ok []) :
    ∃ fields', v = .list fields' ∧ read resolve path fields' = .ok [] := by
  obtain ⟨formed, none, -⟩ := read_ok_iff.1 h
  obtain ⟨fields', rfl, formed', names, names', each, first, second⟩ :=
    levels_of_respelled formed alike
  rw [first, eq_comm, List.map_eq_nil_iff] at none
  subst none
  obtain rfl := List.forall₂_nil_left_iff.1 each
  exact ⟨fields', rfl, read_ok_iff.2 ⟨formed', (second resolve).symm, List.nodup_nil⟩⟩

end Selection

/-! ### Selections -/

namespace Respelled
variable {s : Site} {v w : Value}

theorem normalize (alike : Respelled c s v w) :
    Respelled c s (Selection.normalize v) (Selection.normalize w) := by
  cases alike with
  | same => exact .same s _
  | level elements => exact .level elements
  | lone entries =>
    cases entries with
    | nil => exact .same s _
    | cons named same form below others =>
      exact .level (.mapping (.cons named same form below others) (.nil s))

theorem isNull (alike : Respelled c s v w) : w.isNull = v.isNull := by
  cases alike <;> rfl

theorem isBlank (alike : Respelled c s v w) : w.isBlank = v.isBlank := by
  cases alike with
  | same => rfl
  | level elements => cases elements <;> rfl
  | lone entries => cases entries <;> rfl

end Respelled

theorem Arguments.take_respelled {arguments : List Argument} {path : List String} {name : String}
    {given given' : List (Value × Value)} {done args : List (String × Value)}
    (each : List.Forall₂
      (fun a b => declared? arguments b.1 = declared? arguments a.1 ∧ b.2 = a.2) given given')
    (h : take arguments path name done given = .ok args) :
    take arguments path name done given' = .ok args := by
  induction each generalizing done with
  | nil => exact h
  | cons alike rest ih =>
    rename_i a b given given'
    obtain ⟨key, v⟩ := a
    obtain ⟨key', w⟩ := b
    obtain ⟨named, rfl⟩ := alike
    change declared? arguments key' = declared? arguments key at named
    rw [take] at h ⊢
    rw [named]
    cases found : declared? arguments key with rw [found] at h
    | none => simp [invalid, reject] at h
    | some argument =>
      simp only at h ⊢
      split at h
      · simp [invalid, reject] at h
      · next fresh =>
        rw [if_neg fresh]
        split at h
        · simp [invalid, reject] at h
        · exact ih h

theorem Arguments.resolve_respelled {arguments : List Argument} {path : List String}
    {name : String} {v w : Value} {args : List (String × Value)}
    (alike : Arguments.Respelled arguments v w)
    (h : resolve arguments path name v = .ok args) : resolve arguments path name w = .ok args := by
  cases alike with
  | same => exact h
  | mapping entries =>
    obtain ⟨given, taken, h⟩ := Outcome.bind_ok h
    rw [resolve, take_respelled entries taken]
    exact h

end FieldPlan
