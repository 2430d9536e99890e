import FieldPlan.Proofs.Site
import FieldPlan.Proofs.Reading
import Mathlib.Data.List.Forall2

/-! Mappings by themselves. One selection is another with some of its lone mappings put into
lists. What the two are read as is compared here, failures included. -/
namespace FieldPlan

/-! ### Outcomes side by side -/

/-- Both fail in one way, or they end in related results. -/
inductive Outcome.Both {α β : Type} (related : α → β → Prop) : Outcome α → Outcome β → Prop
  | error (failure : Failure) : Both related (.error failure) (.error failure)
  | ok {a : α} {b : β} (h : related a b) : Both related (.ok a) (.ok b)

namespace Outcome.Both
variable {α β γ δ : Type} {related : α → β → Prop} {x : Outcome α} {y : Outcome β}

theorem reject {kind : Rejection.Kind} {path : List String} {field : Option String}
    {detail : List (String × String)} :
    Both related (reject kind path field detail) (reject kind path field detail) :=
  .error _

theorem refl {related : α → α → Prop} (same : ∀ a, related a a) (x : Outcome α) :
    Both related x x := by
  cases x with
  | error failure => exact .error failure
  | ok a => exact .ok (same a)

theorem bind {related' : γ → δ → Prop} {f : α → Outcome γ} {g : β → Outcome δ}
    (first : Both related x y) (next : ∀ a b, related a b → Both related' (f a) (g b)) :
    Both related' (x >>= f) (y >>= g) := by
  cases first with
  | error failure => exact .error failure
  | ok h => exact next _ _ h

theorem map {related' : γ → δ → Prop} {f : α → γ} {g : β → δ} (first : Both related x y)
    (next : ∀ a b, related a b → related' (f a) (g b)) : Both related' (x.map f) (y.map g) := by
  cases first with
  | error failure => exact .error failure
  | ok h => exact .ok (next _ _ h)

theorem bind_eq {f : α → Outcome γ} {g : β → Outcome γ} (first : Both related x y)
    (next : ∀ a b, related a b → f a = g b) : x >>= f = y >>= g := by
  cases first with
  | error failure => rfl
  | ok h => exact next _ _ h

theorem mapM {each : γ → δ → Prop} {xs : List γ} {ys : List δ} {f : γ → Outcome α}
    {g : δ → Outcome β} (pairs : List.Forall₂ each xs ys)
    (parts : ∀ a b, each a b → Both related (f a) (g b)) :
    Both (List.Forall₂ related) (xs.mapM f) (ys.mapM g) := by
  induction pairs with
  | nil => exact .ok .nil
  | cons here _ ih =>
    rw [List.mapM_cons, List.mapM_cons]
    exact (parts _ _ here).bind fun _ _ one => ih.bind fun _ _ others => .ok (.cons one others)

end Outcome.Both

/-! ### The relation -/

namespace Value

def isList : Value → Bool
  | .list _ => true
  | _ => false

end Value

/-- What is below a name; below one that leads nowhere nothing can be asked for. -/
def Site.inside (c : Catalog) (s : Site) (name : String) : Site := (s.under c name).getD .closed

section
variable (c : Catalog) (level : Site → Value → Value → Prop) (s : Site)

/-- What stands under a name. An object form stays one, with the same arguments, and where the
name is a struct or a tuple stored with its record, a list does not stand for a mapping. -/
inductive ListedUnder (name : String) (v w : Value) : Prop
  | called (kind : s.kind c name = .calculationWithArgs) (form : Arguments.isArgsForm v = true)
      (form' : Arguments.isArgsForm w = true)
      (args : w.get? Arguments.argsKey = v.get? Arguments.argsKey)
      (below : level (s.inside c name) (s.given c name v) (s.given c name w))
  | uncalled (kind : s.kind c name = .calculationWithArgs)
      (form : Arguments.isArgsForm v = false) (form' : Arguments.isArgsForm w = false)
      (below : level (s.inside c name) v w)
  | derived (kind : s.kind c name = .calculationComplex ∨ s.kind c name = .complexAggregate)
      (fields : (w.get? Arguments.fieldsKey).isSome = (v.get? Arguments.fieldsKey).isSome)
      (args : (v.get? Arguments.fieldsKey).isSome = true →
        (w.get? Arguments.argsKey).isSome = (v.get? Arguments.argsKey).isSome)
      (below : level (s.inside c name) (s.given c name v) (s.given c name w))
  | stored (kind : s.kind c name = .typedStruct ∨ s.kind c name = .tuple)
      (lists : w.isList = v.isList) (below : level (s.inside c name) v w)
  | other (kind : s.kind c name ∉ [Classification.calculationWithArgs, .calculationComplex,
        .complexAggregate, .typedStruct, .tuple])
      (below : level (s.inside c name) v w)

inductive ListedEntry : Value × Value → Value × Value → Prop
  | same (entry : Value × Value) : ListedEntry entry entry
  | under {spelled : String} {v w : Value}
      (below : ListedUnder c level s (s.resolve c spelled) v w) :
      ListedEntry (.str spelled, v) (.str spelled, w)

/-- A pair is no way to ask for the member of a union, so that it stays there as it is. -/
inductive ListedElement : Value → Value → Prop
  | same (element : Value) : ListedElement element element
  | mapping {entries entries' : List (Value × Value)}
      (each : List.Forall₂ (ListedEntry c level s) entries entries') :
      ListedElement (.mapping entries) (.mapping entries')
  | pair {spelled : String} {v w : Value} (outside : ∀ declared, s ≠ .members declared)
      (below : ListedUnder c level s (s.resolve c spelled) v w) :
      ListedElement (.tuple [.str spelled, v]) (.tuple [.str spelled, w])

inductive ListedLevel : Value → Value → Prop
  | same (v : Value) : ListedLevel v v
  | list {fields fields' : List Value}
      (each : List.Forall₂ (ListedElement c level s) fields fields') :
      ListedLevel (.list fields) (.list fields')
  | lone {first first' : Value × Value} {rest rest' : List (Value × Value)}
      (element : ListedElement c level s (.mapping (first :: rest)) (.mapping (first' :: rest'))) :
      ListedLevel (.mapping (first :: rest)) (.mapping (first' :: rest'))
  | wrapped {first first' : Value × Value} {rest rest' : List (Value × Value)}
      (element : ListedElement c level s (.mapping (first :: rest)) (.mapping (first' :: rest'))) :
      ListedLevel (.mapping (first :: rest)) (.list [.mapping (first' :: rest')])

end

/-- The second selection is the first with lone mappings put into lists, on the uppermost levels
of the given number. -/
def Listed (c : Catalog) : Nat → Site → Value → Value → Prop
  | 0, _, v, w => v = w
  | n + 1, s, v, w => ListedLevel c (Listed c n) s v w

section
variable (c : Catalog) (level : Site → Value → Value → Prop) (s : Site)

inductive Request.Listed (name : String) : Request → Request → Prop
  | same (request : Request) : Listed name request request
  | nested {way : Value → Request} {v w : Value} (nests : ∀ x, (way x).nested? = some x)
      (keyed : ∀ declared, s = .members declared → way = .keyed)
      (below : ListedUnder c level s name v w) : Listed name (way v) (way w)

inductive Entry.Listed : Entry → Entry → Prop
  | intro {spelled name : String} {a b : Request} (request : Request.Listed c level s name a b) :
      Listed ⟨spelled, name, a⟩ ⟨spelled, name, b⟩

inductive Selection.ListedRequest : Value × Request → Value × Request → Prop
  | same (request : Value × Request) : ListedRequest request request
  | named {spelled : String} {a b : Request}
      (request : Request.Listed c level s (s.resolve c spelled) a b) :
      ListedRequest (.str spelled, a) (.str spelled, b)

inductive Selection.ListedName : String × Request → String × Request → Prop
  | intro {spelled : String} {a b : Request}
      (request : Request.Listed c level s (s.resolve c spelled) a b) :
      ListedName (spelled, a) (spelled, b)

end

/-! ### Reading a level -/

namespace Selection
variable {c : Catalog} {level : Site → Value → Value → Prop} {s : Site} {path : List String}

theorem ListedName.refl (name : String × Request) : ListedName c level s name name :=
  .intro (.same name.2)

theorem requests_listed {a b : Value} (alike : ListedElement c level s a b) :
    a = b ∨ ∃ asked asked', requests? a = some asked ∧ requests? b = some asked' ∧
      List.Forall₂ (ListedRequest c level s) asked asked' := by
  cases alike with
  | same => exact .inl rfl
  | mapping each =>
    refine .inr ⟨_, _, rfl, rfl, ?_⟩
    rw [List.forall₂_map_left_iff, List.forall₂_map_right_iff]
    apply each.imp
    intro entry entry' alike
    cases alike with
    | same => exact .same _
    | under below => exact .named (.nested (fun _ => rfl) (fun _ _ => rfl) below)
  | pair outside below =>
    refine .inr ⟨_, _, rfl, rfl, .cons (.named (.nested (fun _ => rfl) ?_ below)) .nil⟩
    intro declared members
    exact absurd members (outside declared)

theorem requireName_listed {a b : Value × Request} (alike : ListedRequest c level s a b) :
    Outcome.Both (ListedName c level s)
      ((requireName path a.1).map fun name => (name, a.2))
      ((requireName path b.1).map fun name => (name, b.2)) := by
  cases alike with
  | same => exact .refl .refl _
  | @named spelled a b request =>
    by_cases empty : spelled = ""
    · subst empty
      exact .error _
    · have named : requireName path (.str spelled) = .ok spelled := by simp [requireName, empty]
      rw [named]
      exact .ok (.intro request)

theorem elementNames_listed {a b : Value} (alike : ListedElement c level s a b) :
    Outcome.Both (List.Forall₂ (ListedName c level s)) (elementNames path a)
      (elementNames path b) := by
  rcases requests_listed alike with rfl | ⟨asked, asked', shape, shape', each⟩
  · exact .refl (fun names => List.forall₂_same.2 fun name _ => .refl name) _
  · simp only [elementNames, shape, shape']
    exact .mapM each fun _ _ => requireName_listed

theorem enrol_listed {seen : List String} {names names' : List (String × Request)}
    (each : List.Forall₂ (ListedName c level s) names names') :
    Outcome.Both (List.Forall₂ (Entry.Listed c level s))
      (enrol (s.resolve c) path seen names) (enrol (s.resolve c) path seen names') := by
  induction each generalizing seen with
  | nil => exact .ok .nil
  | cons alike _ ih =>
    obtain ⟨request⟩ := alike
    rw [enrol, enrol]
    split
    · exact .reject
    · exact ih.map fun _ _ others => .cons (.intro request) others

theorem names_listed {entries entries' : List Entry}
    (each : List.Forall₂ (Entry.Listed c level s) entries entries') :
    entries.map Entry.name = entries'.map Entry.name := by
  induction each with
  | nil => rfl
  | cons alike _ ih =>
    obtain ⟨request⟩ := alike
    rw [List.map_cons, List.map_cons, ih]

theorem readFrom_listed {seen : List String} {fields fields' : List Value}
    (each : List.Forall₂ (ListedElement c level s) fields fields') :
    Outcome.Both (List.Forall₂ (Entry.Listed c level s))
      (readFrom (s.resolve c) path seen fields) (readFrom (s.resolve c) path seen fields') := by
  induction each generalizing seen with
  | nil => exact .ok .nil
  | cons alike _ ih =>
    rw [readFrom, readFrom]
    refine (elementNames_listed alike).bind fun names names' named => ?_
    refine (enrol_listed named).bind fun entries entries' enrolled => ?_
    rw [names_listed enrolled]
    exact ih.bind fun others others' more => .ok (List.rel_append enrolled more)

end Selection

/-! ### Selections in place of one another -/

namespace ListedUnder
variable {c : Catalog} {level : Site → Value → Value → Prop} {s : Site} {name : String}
variable {v w : Value}

theorem inside (h : ListedUnder c level s name v w)
    (called : s.kind c name ≠ .calculationWithArgs)
    (derived : s.kind c name ≠ .calculationComplex ∧ s.kind c name ≠ .complexAggregate) :
    level (s.inside c name) v w := by
  cases h with
  | called kind => exact absurd kind called
  | uncalled kind => exact absurd kind called
  | derived kind => exact absurd kind (not_or.2 derived)
  | stored _ _ below => exact below
  | other _ below => exact below

theorem plain (h : ListedUnder c level s name v w) (kind : s.kind c name = .notFound) :
    level (s.inside c name) v w :=
  h.inside (by simp [kind]) (by simp [kind])

theorem of_called (h : ListedUnder c level s name v w)
    (kind : s.kind c name = .calculationWithArgs) :
    Arguments.isArgsForm w = Arguments.isArgsForm v ∧ (Arguments.isArgsForm v = true →
      w.get? Arguments.argsKey = v.get? Arguments.argsKey ∧
        level (s.inside c name) (s.given c name v) (s.given c name w)) := by
  cases h with
  | called _ form form' args below => exact ⟨form'.trans form.symm, fun _ => ⟨args, below⟩⟩
  | uncalled _ form form' => exact ⟨form'.trans form.symm, fun called => by simp [form] at called⟩
  | derived other => simp [kind] at other
  | stored other => simp [kind] at other
  | other other => simp [kind] at other

theorem of_derived (h : ListedUnder c level s name v w)
    (kind : s.kind c name = .calculationComplex ∨ s.kind c name = .complexAggregate) :
    (w.get? Arguments.fieldsKey).isSome = (v.get? Arguments.fieldsKey).isSome ∧
      ((v.get? Arguments.fieldsKey).isSome = true →
        (w.get? Arguments.argsKey).isSome = (v.get? Arguments.argsKey).isSome) ∧
      level (s.inside c name) (s.given c name v) (s.given c name w) := by
  cases h with
  | called other => simp [other] at kind
  | uncalled other => simp [other] at kind
  | derived _ fields args below => exact ⟨fields, args, below⟩
  | stored other => rcases kind with kind | kind <;> simp [kind] at other
  | other other => rcases kind with kind | kind <;> simp [kind] at other

theorem of_stored (h : ListedUnder c level s name v w)
    (kind : s.kind c name = .typedStruct ∨ s.kind c name = .tuple) :
    w.isList = v.isList ∧ level (s.inside c name) v w := by
  cases h with
  | called other => simp [other] at kind
  | uncalled other => simp [other] at kind
  | derived other => rcases kind with kind | kind <;> simp [kind] at other
  | stored _ lists below => exact ⟨lists, below⟩
  | other other => rcases kind with kind | kind <;> simp [kind] at other

end ListedUnder

namespace Listed
variable {c : Catalog} {n : Nat} {s : Site} {v w : Value}

theorem refl (c : Catalog) (n : Nat) (s : Site) (v : Value) : Listed c n s v v := by
  cases n with
  | zero => rfl
  | succ n => exact .same v

theorem cases_level (h : Listed c n s v w) : v = w ∨ ∃ fields fields',
    Selection.normalize v = .list fields ∧ Selection.normalize w = .list fields' ∧
      Listed c n s (.list fields) (.list fields') := by
  cases n with
  | zero => exact .inl h
  | succ n =>
    cases h with
    | same => exact .inl rfl
    | list each => exact .inr ⟨_, _, rfl, rfl, .list each⟩
    | lone element => exact .inr ⟨_, _, rfl, rfl, .list (.cons element .nil)⟩
    | wrapped element => exact .inr ⟨_, _, rfl, rfl, .list (.cons element .nil)⟩

theorem normalize (h : Listed c n s v w) :
    Listed c n s (Selection.normalize v) (Selection.normalize w) := by
  rcases h.cases_level with rfl | ⟨fields, fields', same, same', listed⟩
  · exact .refl c n s _
  · rwa [same, same']

theorem isEmpty {fields fields' : List Value} (h : Listed c n s (.list fields) (.list fields')) :
    fields.isEmpty = fields'.isEmpty := by
  cases n with
  | zero =>
    cases h
    rfl
  | succ n =>
    cases h with
    | same => rfl
    | list each => cases each <;> rfl

theorem isNull (h : Listed c n s v w) : v.isNull = w.isNull := by
  cases n with
  | zero => rw [show v = w from h]
  | succ n => cases h <;> rfl

theorem isBlank (h : Listed c n s v w) : v.isBlank = w.isBlank := by
  rcases h.cases_level with rfl | ⟨fields, fields', same, same', listed⟩
  · rfl
  · rw [← Selection.isBlank_normalize v, ← Selection.isBlank_normalize w, same, same']
    exact listed.isEmpty

section
variable {kind : String} {path : List String} {field : Option String}

theorem requireSome_list {fields fields' : List Value}
    (h : Listed c n s (.list fields) (.list fields')) :
    Outcome.Both (fun fields fields' => Listed c n s (.list fields) (.list fields'))
      (Selection.requireSome kind path field (.list fields))
      (Selection.requireSome kind path field (.list fields')) := by
  have empty := h.isEmpty
  cases fields with
  | nil =>
    obtain rfl : fields' = [] := by simpa using empty.symm
    exact .reject
  | cons first rest =>
    cases fields' with
    | nil => contradiction
    | cons first' rest' => exact .ok h

theorem requireSome (h : Listed c n s v w) :
    Outcome.Both (fun fields fields' => Listed c n s (.list fields) (.list fields'))
      (Selection.requireSome kind path field (Selection.normalize v))
      (Selection.requireSome kind path field (Selection.normalize w)) := by
  rcases h.cases_level with rfl | ⟨fields, fields', same, same', listed⟩
  · exact .refl (fun fields => .refl c n s _) _
  · rw [same, same']
    exact listed.requireSome_list

theorem requireSome_stored (h : Listed c n s v w) (lists : w.isList = v.isList) :
    Outcome.Both (fun fields fields' => Listed c n s (.list fields) (.list fields'))
      (Selection.requireSome kind path field v) (Selection.requireSome kind path field w) := by
  cases n with
  | zero =>
    obtain rfl : v = w := h
    exact .refl (fun fields => .refl c 0 s _) _
  | succ n =>
    cases h with
    | same => exact .refl (fun fields => .refl c _ s _) _
    | list each => exact requireSome_list (n := n + 1) (.list each)
    | lone element => exact .reject
    | wrapped element => contradiction

end
end Listed

/-! ### Levels -/

namespace Descent
variable {c : Catalog} {n : Nat} {s : Site} {path : List String} {part : Entry → Outcome Level}

theorem collect_listed {level : Site → Value → Value → Prop} {entries entries' : List Entry}
    (each : List.Forall₂ (Entry.Listed c level s) entries entries')
    (parts : ∀ a b, Entry.Listed c level s a b → part a = part b) :
    collect part entries = collect part entries' := by
  induction each with
  | nil => rfl
  | cons alike _ ih => rw [collect, collect, parts _ _ alike, ih]

theorem level_listed {fields fields' : List Value}
    (h : Listed c n s (.list fields) (.list fields'))
    (parts : ∀ m < n, ∀ a b, Entry.Listed c (Listed c m) s a b → part a = part b) :
    (do let entries ← Selection.read (s.resolve c) path fields; collect part entries) =
      (do let entries ← Selection.read (s.resolve c) path fields'; collect part entries) := by
  cases n with
  | zero =>
    cases h
    rfl
  | succ n =>
    cases h with
    | same => rfl
    | list each =>
      exact (Selection.readFrom_listed each).bind_eq fun _ _ read =>
        collect_listed read (parts n (Nat.lt_succ_self n))

/-- Below so many levels the work does not tell the two selections apart. -/
def ListsBelow (c : Catalog) (n : Nat) (f : Descend) : Prop :=
  ∀ m < n, ∀ position v w path, Listed c m (.ofPosition c position) v w →
    f position v path = f position w path

theorem ListsBelow.mono {m n : Nat} {f : Descend} (lists : ListsBelow c n f) (le : m ≤ n) :
    ListsBelow c m f :=
  fun k lt => lists k (Nat.lt_of_lt_of_le lt le)

/-! ### Values that are no records -/

section
variable {f : Descend} {m : Nat} {a b : Entry}

theorem untypedEntry_listed (lists : ListsBelow c (m + 1) f)
    (alike : Entry.Listed c (Listed c m) .untyped a b) :
    untypedEntry f path a = untypedEntry f path b := by
  obtain ⟨request⟩ := alike
  cases request with
  | same => rfl
  | nested nests keyed under =>
    simp only [untypedEntry, nests]
    rw [lists m (Nat.lt_succ_self m) .untyped _ _ _ (under.plain rfl)]

theorem untyped_listed {v w : Value} (lists : ListsBelow c n f)
    (h : Listed c n .untyped v w) : untyped f v path = untyped f w path := by
  simp only [untyped]
  rw [Selection.isBlank_normalize, Selection.isBlank_normalize, h.isBlank]
  split
  · rfl
  · rcases h.cases_level with rfl | ⟨fields, fields', same, same', listed⟩
    · rfl
    · rw [same, same']
      exact level_listed listed fun _ lt _ _ => untypedEntry_listed (lists.mono lt)

theorem slotEntry_listed {kind : String} {declared : List (Slot TypeRef)}
    {externals : List (String × String)} (lists : ListsBelow c (m + 1) f)
    (alike : Entry.Listed c (Listed c m) (.slots declared externals) a b) :
    slotEntry c f kind declared path a = slotEntry c f kind declared path b := by
  obtain @⟨spelled, name, asked, asked', request⟩ := alike
  cases request with
  | same => rfl
  | @nested way v w nests keyed under =>
    simp only [slotEntry, nests]
    cases found : (byName Slot.name declared).find? (·.name == name) with
    | none => rfl
    | some slot =>
      have present : Site.slot? declared name = some slot := found
      have inner : Listed c m (.ofPosition c (.ofType slot.type)) v w := by
        simpa [Site.inside, Site.under, present] using under.plain rfl
      dsimp only
      rw [lists m (Nat.lt_succ_self m) _ _ _ _ inner]

theorem slots_listed {kind : String} {declared : List (Slot TypeRef)}
    {externals : List (String × String)} {fields fields' : List Value}
    (lists : ListsBelow c n f)
    (h : Listed c n (.slots declared externals) (.list fields) (.list fields')) :
    slots c f kind (Selection.slotName (declared.map Slot.name) externals) declared
        (.list fields) path =
      slots c f kind (Selection.slotName (declared.map Slot.name) externals) declared
        (.list fields') path :=
  level_listed h fun _ lt _ _ => slotEntry_listed (lists.mono lt)

theorem plainSlots_listed {kind : String} {declared : List (Slot TypeRef)}
    {fields fields' : List Value} (lists : ListsBelow c n f)
    (h : Listed c n (.ofSlots declared) (.list fields) (.list fields')) :
    plainSlots c f kind declared (.list fields) path =
      plainSlots c f kind declared (.list fields') path := by
  cases declared with
  | cons slot rest => exact slots_listed lists h
  | nil =>
    -- whatever stands under a name that is not there
    have entries (m : Nat) (a b : Entry) (alike : Entry.Listed c (Listed c m) .untyped a b) :
        slotEntry c f kind [] path a = slotEntry c f kind [] path b := by
      obtain ⟨request⟩ := alike
      rfl
    have listed : Listed c n .untyped (.list fields) (.list fields') := h
    have level := @level_listed c n .untyped path (slotEntry c f kind [] path) fields fields'
      listed fun m _ => entries m
    rwa [Site.resolve_untyped] at level

theorem container_listed {kind : String} {declared : List (Slot TypeRef)} {v w : Value}
    (lists : ListsBelow c n f) (h : Listed c n (.ofSlots declared) v w) :
    (if declared.isEmpty then untyped f v path
      else plainSlots c f kind declared (Selection.normalize v) path) =
    (if declared.isEmpty then untyped f w path
      else plainSlots c f kind declared (Selection.normalize w) path) := by
  split
  · next none =>
    rw [Site.ofSlots, if_pos none] at h
    exact untyped_listed lists h
  · rcases h.cases_level with rfl | ⟨fields, fields', same, same', listed⟩
    · rfl
    · rw [same, same']
      exact plainSlots_listed lists listed

theorem structMembers_listed {name : String} {fields fields' : List Value}
    (lists : ListsBelow c n f)
    (h : Listed c n (.ofType c (.typedStruct name)) (.list fields) (.list fields')) :
    structMembers c f name (.list fields) path = structMembers c f name (.list fields') path := by
  unfold structMembers
  cases found : ofCatalog (c.struct name) with
  | error failure => rfl
  | ok struct =>
    have present := Catalog.struct_ok (ofCatalog_ok found)
    rw [Site.ofType, present] at h
    exact slots_listed lists h

theorem unionEntry_listed {declared : List (Member TypeRef)} (lists : ListsBelow c (m + 1) f)
    (alike : Entry.Listed c (Listed c m) (.members declared) a b) :
    unionEntry c f declared path a = unionEntry c f declared path b := by
  obtain @⟨spelled, name, asked, asked', request⟩ := alike
  cases request with
  | same => rfl
  | @nested way v w nests keyed under =>
    obtain rfl := keyed declared rfl
    unfold unionEntry
    dsimp only
    cases found : (byName Member.name declared).find? (·.name == name) with
    | none => rfl
    | some member =>
      have present : Site.member? declared name = some member := found
      have inner : Listed c m (.ofPosition c (.ofType member.type)) v w := by
        simpa [Site.inside, Site.under, present] using under.plain rfl
      dsimp only
      rw [lists m (Nat.lt_succ_self m) _ _ _ _ inner]

theorem unionMembers_listed {declared : List (Member TypeRef)} {v w : Value}
    (lists : ListsBelow c n f) (h : Listed c n (.members declared) v w) :
    unionMembers c f declared v path = unionMembers c f declared w path :=
  h.requireSome.bind_eq fun _ _ listed =>
    level_listed listed fun _ lt _ _ => unionEntry_listed (lists.mono lt)

end
end Descent
end FieldPlan
