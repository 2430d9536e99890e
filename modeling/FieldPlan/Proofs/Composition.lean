import FieldPlan.Catalog.Travel
import FieldPlan.Proofs.Reading
import FieldPlan.Proofs.Site

/-! Selections put together and taken apart. A list is worked on entry by entry, so that the
plan for two lists one after the other is the one plan after the other, a mapping of several
keys is as good as several mappings of one key, and the order of the entries is only the
order of the plan. -/
namespace FieldPlan

/-! ### Levels -/

namespace Level

structure Perm (a b : Level) : Prop where
  select : a.select.Perm b.select
  load : a.load.Perm b.load
  template : a.template.Perm b.template

theorem Perm.refl (a : Level) : a.Perm a :=
  ⟨List.Perm.refl _, List.Perm.refl _, List.Perm.refl _⟩

theorem Perm.trans {a b d : Level} (first : a.Perm b) (second : b.Perm d) : a.Perm d :=
  ⟨first.select.trans second.select, first.load.trans second.load,
    first.template.trans second.template⟩

theorem Perm.append_left {a b : Level} (d : Level) (h : a.Perm b) : (d ++ a).Perm (d ++ b) :=
  ⟨h.select.append_left _, h.load.append_left _, h.template.append_left _⟩

theorem append_perm (a b : Level) : (a ++ b).Perm (b ++ a) :=
  ⟨List.perm_append_comm, List.perm_append_comm, List.perm_append_comm⟩

theorem Perm.append_right {a b : Level} (d : Level) (h : a.Perm b) : (a ++ d).Perm (b ++ d) :=
  ⟨h.select.append_right _, h.load.append_right _, h.template.append_right _⟩

end Level

namespace Descent
variable {part : Entry → Outcome Level}

theorem collect_append (part : Entry → Outcome Level) (first others : List Entry) :
    collect part (first ++ others) = (do
      let a ← collect part first
      let b ← collect part others
      return a ++ b) := by
  induction first with
  | nil =>
    change collect part others = collect part others >>= fun b => pure b
    exact (bind_pure _).symm
  | cons entry rest ih =>
    rw [List.cons_append, collect, collect, ih]
    cases part entry with
    | error failure => rfl
    | ok one =>
      cases collect part rest with
      | error failure => rfl
      | ok more =>
        cases collect part others with
        | error failure => rfl
        | ok last =>
          change Except.ok (one ++ (more ++ last)) = Except.ok (one ++ more ++ last)
          rw [Level.append_assoc]

theorem collect_perm {entries entries' : List Entry} {l : Level} (perm : entries.Perm entries')
    (h : collect part entries = .ok l) :
    ∃ l', collect part entries' = .ok l' ∧ l.Perm l' := by
  induction perm generalizing l with
  | nil => exact ⟨l, h, .refl l⟩
  | cons entry _ ih =>
    obtain ⟨one, first, h⟩ := Outcome.bind_ok h
    obtain ⟨more, others, h⟩ := Outcome.bind_ok h
    cases h
    obtain ⟨more', others', same⟩ := ih others
    refine ⟨one ++ more', ?_, same.append_left one⟩
    rw [collect, first, others']
    rfl
  | swap entry other rest =>
    -- both entries are accepted, so that neither failure can come first
    obtain ⟨one, first, h⟩ := Outcome.bind_ok h
    obtain ⟨more, others, h⟩ := Outcome.bind_ok h
    cases h
    obtain ⟨two, second, others⟩ := Outcome.bind_ok others
    obtain ⟨rest, last, others⟩ := Outcome.bind_ok others
    cases others
    refine ⟨two ++ (one ++ rest), ?_, ?_⟩
    · rw [collect, second, collect, first, last]
      rfl
    · rw [← Level.append_assoc, ← Level.append_assoc]
      exact (Level.append_perm one two).append_right rest
  | trans _ _ ih₁ ih₂ =>
    obtain ⟨middle, worked, first⟩ := ih₁ h
    obtain ⟨l', worked', second⟩ := ih₂ worked
    exact ⟨l', worked', first.trans second⟩

end Descent

/-! ### Reading -/

namespace Selection
variable {resolve : String → String} {path : List String} {entries : List Entry}

theorem read_append {first others : List Value}
    (h : read resolve path (first ++ others) = .ok entries) :
    ∃ a b, read resolve path first = .ok a ∧ read resolve path others = .ok b ∧
      entries = a ++ b := by
  obtain ⟨formed, same, distinct⟩ := read_ok_iff.1 h
  obtain ⟨formed, formed'⟩ := List.forall_mem_append.1 formed
  rw [entriesOf_append] at same
  rw [same, List.map_append, List.nodup_append] at distinct
  exact ⟨_, _, read_ok_iff.2 ⟨formed, rfl, distinct.1⟩,
    read_ok_iff.2 ⟨formed', rfl, distinct.2.1⟩, same⟩

theorem read_perm {fields fields' : List Value} (perm : fields.Perm fields')
    (h : read resolve path fields = .ok entries) :
    ∃ entries', read resolve path fields' = .ok entries' ∧ entries.Perm entries' := by
  obtain ⟨formed, rfl, distinct⟩ := read_ok_iff.1 h
  have same : (entriesOf resolve fields).Perm (entriesOf resolve fields') :=
    (perm.flatMap_right _).filterMap _
  refine ⟨_, read_ok_iff.2 ⟨?_, rfl, ?_⟩, same⟩
  · intro element member
    exact formed element (perm.mem_iff.2 member)
  · exact (same.map Entry.name).nodup_iff.1 distinct

def singles (mapping : List (Value × Value)) : List Value :=
  mapping.map fun entry => .mapping [entry]

theorem walk_singles (mapping : List (Value × Value)) :
    walk (singles mapping) = walk [.mapping mapping] := by
  induction mapping with
  | nil => rfl
  | cons entry rest ih =>
    rw [singles, List.map_cons, walk, List.flatMap_cons, ← walk, ← singles, ih]
    rfl

theorem wellFormed_singles {mapping : List (Value × Value)}
    (h : WellFormed [.mapping mapping]) : WellFormed (singles mapping) := by
  obtain ⟨names, shape, named⟩ := h _ (List.mem_singleton_self _)
  intro element member
  obtain ⟨entry, present, rfl⟩ := List.mem_map.1 member
  have asked : (entry.1, Request.keyed entry.2) ∈ names.map fun n => (Value.str n.1, n.2) := by
    rw [← Option.some.inj shape]
    exact List.mem_map_of_mem present
  obtain ⟨n, found, same⟩ := List.mem_map.1 asked
  refine ⟨[n], ?_, fun m only => List.mem_singleton.1 only ▸ named n found⟩
  rw [List.map_singleton, same]
  rfl

theorem read_singles {mapping : List (Value × Value)} {before after : List Value}
    (h : read resolve path (before ++ .mapping mapping :: after) = .ok entries) :
    read resolve path (before ++ singles mapping ++ after) = .ok entries := by
  rw [← List.singleton_append, ← List.append_assoc] at h
  obtain ⟨formed, same, distinct⟩ := read_ok_iff.1 h
  obtain ⟨formed, last⟩ := List.forall_mem_append.1 formed
  obtain ⟨first, formed⟩ := List.forall_mem_append.1 formed
  refine read_ok_iff.2 ⟨?_, ?_, distinct⟩
  · exact List.forall_mem_append.2
      ⟨List.forall_mem_append.2 ⟨first, wellFormed_singles formed⟩, last⟩
  · rw [same]
    simp only [entriesOf, walk_append, walk_singles]

end Selection

/-! ### Positions -/

/-- Of a union or a typed struct something has to be asked for. -/
def Position.needsEntries : Position → Bool
  | .value t =>
    match t.element with
    | .union _ => true
    | .typedStruct _ => true
    | _ => false
  | _ => false

/-- A check that does not look at the list comes first. Then the list is read at the site, and
its entries are worked on one by one. -/
def ReadsLevels (c : Catalog) (s : Site) (path : List String) (needed : Bool)
    (work : List Value → Outcome Level) : Prop :=
  ∃ (check : Outcome Unit) (part : Entry → Outcome Level), ∀ fields,
    (needed = true → fields ≠ []) →
      work fields = (do
        check
        let entries ← Selection.read (s.resolve c) path fields
        Descent.collect part entries)

namespace ReadsLevels
variable {c : Catalog} {s : Site} {path : List String} {needed : Bool}
variable {work : List Value → Outcome Level} {entries : List Entry}

theorem append (h : ReadsLevels c s path needed work) {first others : List Value}
    (read : Selection.read (s.resolve c) path (first ++ others) = .ok entries)
    (some : needed = true → first ≠ [] ∧ others ≠ []) :
    work (first ++ others) = (do
      let a ← work first
      let b ← work others
      return a ++ b) := by
  obtain ⟨check, part, works⟩ := h
  obtain ⟨a, b, readFirst, readOthers, rfl⟩ := Selection.read_append read
  have together : needed = true → first ++ others ≠ [] := by
    intro need empty
    exact (some need).1 (List.append_eq_nil_iff.1 empty).1
  rw [works _ together, works _ fun need => (some need).1, works _ fun need => (some need).2, read,
    readFirst, readOthers]
  cases check with
  | error failure => rfl
  | ok _ => exact Descent.collect_append part a b

theorem singles (h : ReadsLevels c s path needed work) {mapping : List (Value × Value)}
    {before after : List Value}
    (read : Selection.read (s.resolve c) path (before ++ .mapping mapping :: after) = .ok entries)
    (some : needed = true → before ++ Selection.singles mapping ++ after ≠ []) :
    work (before ++ .mapping mapping :: after) =
      work (before ++ Selection.singles mapping ++ after) := by
  obtain ⟨check, part, works⟩ := h
  rw [works _ some, works _ fun _ => by simp, Selection.read_singles read, read]

theorem perm (h : ReadsLevels c s path needed work) {fields fields' : List Value}
    (some : needed = true → fields ≠ []) (same : fields.Perm fields') {l : Level}
    (accepted : work fields = .ok l) : ∃ l', work fields' = .ok l' ∧ l.Perm l' := by
  obtain ⟨check, part, works⟩ := h
  rw [works _ some] at accepted
  obtain ⟨_, passed, accepted⟩ := Outcome.bind_ok accepted
  obtain ⟨entries, read, collected⟩ := Outcome.bind_ok accepted
  obtain ⟨entries', read', order⟩ := Selection.read_perm same read
  obtain ⟨l', collected', rearranged⟩ := Descent.collect_perm order collected
  have some' : needed = true → fields' ≠ [] := by
    rintro need rfl
    exact some need same.eq_nil
  refine ⟨l', ?_, rearranged⟩
  rw [works _ some', passed, read']
  exact collected'

end ReadsLevels

namespace Descent
variable {c : Catalog} {e : Exposure} {f : Descend} {path : List String}

theorem untyped_readsLevels :
    ReadsLevels c .untyped path false fun fields => untyped f (.list fields) path := by
  refine ⟨.ok (), untypedEntry f path, ?_⟩
  intro fields _
  cases fields <;> rfl

theorem slots_readsLevels {kind : String} {declared : List (Slot TypeRef)}
    {externals : List (String × String)} :
    ReadsLevels c (.slots declared externals) path false fun fields =>
      slots c f kind (Selection.slotName (declared.map Slot.name) externals) declared
        (.list fields) path := by
  refine ⟨.ok (), slotEntry c f kind declared path, ?_⟩
  intro fields _
  rfl

theorem container_readsLevels {kind : String} {declared : List (Slot TypeRef)} :
    ReadsLevels c (.ofSlots declared) path false fun fields =>
      if declared.isEmpty then untyped f (.list fields) path
      else plainSlots c f kind declared (Selection.normalize (.list fields)) path := by
  unfold Site.ofSlots
  split
  · exact untyped_readsLevels
  · exact slots_readsLevels

theorem structMembers_readsLevels {name : String}
    (present : Site.ofType c (.typedStruct name) ≠ .closed) :
    ReadsLevels c (.ofType c (.typedStruct name)) path true fun fields => (do
      let fields ← Selection.requireSome "typed_struct" path path.getLast?
        (Selection.normalize (.list fields))
      structMembers c f name (.list fields) path) := by
  rw [Site.ofType] at present ⊢
  cases found : c.struct? name with
  | none =>
    rw [found] at present
    exact absurd rfl present
  | some s =>
    refine ⟨.ok (), slotEntry c f "typed_struct_field" s.slots path, ?_⟩
    intro fields some
    have held : c.struct name = .ok s := by rw [Catalog.struct, found]
    cases fields with
    | nil => exact absurd rfl (some rfl)
    | cons element rest =>
      change structMembers c f name (.list (element :: rest)) path = _
      rw [structMembers, held]
      rfl

theorem unionMembers_readsLevels {declared : List (Member TypeRef)} :
    ReadsLevels c (.members declared) path true fun fields =>
      unionMembers c f declared (.list fields) path := by
  refine ⟨.ok (), unionEntry c f declared path, ?_⟩
  intro fields some
  cases fields with
  | nil => exact absurd rfl (some rfl)
  | cons element rest => rfl

theorem entered_readsLevels {name : String} :
    ReadsLevels c (.record name) path false fun fields => (do
      record c e f (← enter c e name path) (.list fields) path) := by
  cases entered : enter c e name path with
  | error failure =>
    refine ⟨.error failure, fun _ => .ok .empty, ?_⟩
    intro fields _
    rfl
  | ok r =>
    refine ⟨.ok (), recordEntry c e f r path, ?_⟩
    intro fields _
    rw [Site.resolve_record (enter_ok entered).1]
    rfl

theorem typed_readsLevels {t : TypeRef} (held : Site.ofType c t ≠ .closed) :
    ReadsLevels c (.ofType c t) path (Position.value t).needsEntries fun fields =>
      typed c e f t (.list fields) path := by
  rw [← Site.ofType_element] at held ⊢
  unfold Position.needsEntries
  cases shape : t.element with simp only [typed, shape]
  | resource name => exact entered_readsLevels
  | map declared => exact container_readsLevels
  | keyword declared => exact container_readsLevels
  | tuple declared => exact container_readsLevels
  | struct instanceOf =>
    cases instanceOf with
    | none => exact untyped_readsLevels
    | some name =>
      by_cases known : c.hasResource name = true
      · rw [Site.ofType, if_pos known]
        simp only [if_pos known]
        exact entered_readsLevels
      · rw [Site.ofType, if_neg known]
        simp only [if_neg known]
        exact untyped_readsLevels
  | typedStruct name =>
    rw [shape] at held
    exact structMembers_readsLevels held
  | union declared => exact unionMembers_readsLevels
  | any => exact untyped_readsLevels
  | primitive kind oneOf =>
    rw [shape] at held
    exact absurd rfl held
  | array item => exact absurd shape (Site.element_ne_array t item)

theorem descend_readsLevels {p : Position} (held : Site.ofPosition c p ≠ .closed) :
    ReadsLevels c (.ofPosition c p) path p.needsEntries fun fields =>
      descend c e p (.list fields) path := by
  simp only [descend_eq]
  cases p with
  | records name many => exact entered_readsLevels
  | value t => exact typed_readsLevels held
  | untyped => exact untyped_readsLevels

end Descent

/-- Lists with parts that name no field twice are worked on part by part: the first failure
of a part is that of the whole, and the plan of the whole is made of those of the parts. It
makes no difference how the keys are spread over mappings, but where something has to be
asked for, the list must not become empty. Any order has the same plan in that order. -/
theorem descend_composes (c : Catalog) (e : Exposure) (p : Position) (path : List String)
    (held : Site.ofPosition c p ≠ .closed) :
    (∀ (first others : List Value) (entries : List Entry),
      Selection.read ((Site.ofPosition c p).resolve c) path (first ++ others) = .ok entries →
      (p.needsEntries = true → first ≠ [] ∧ others ≠ []) →
      descend c e p (.list (first ++ others)) path = (do
        let a ← descend c e p (.list first) path
        let b ← descend c e p (.list others) path
        return a ++ b)) ∧
    (∀ (before after : List Value) (mapping : List (Value × Value)) (entries : List Entry),
      Selection.read ((Site.ofPosition c p).resolve c) path (before ++ .mapping mapping :: after) =
        .ok entries →
      (p.needsEntries = true → before ++ Selection.singles mapping ++ after ≠ []) →
      descend c e p (.list (before ++ .mapping mapping :: after)) path =
        descend c e p (.list (before ++ Selection.singles mapping ++ after)) path) ∧
    (∀ (fields fields' : List Value) (l : Level), fields.Perm fields' →
      descend c e p (.list fields) path = .ok l →
      ∃ l', descend c e p (.list fields') path = .ok l' ∧ l.Perm l') := by
  have levels : ReadsLevels c (Site.ofPosition c p) path p.needsEntries fun fields =>
      descend c e p (.list fields) path := Descent.descend_readsLevels held
  refine ⟨?_, ?_, ?_⟩
  · intro first others entries read some
    exact levels.append read some
  · intro before after mapping entries read some
    exact levels.singles read some
  · intro fields fields' l same accepted
    by_cases none : fields = []
    · subst none
      rw [List.nil_perm.1 same]
      exact ⟨l, accepted, .refl l⟩
    · exact levels.perm (fun _ => none) same accepted

namespace Travel

def goal : Position :=
  .value (.union [⟨"place", .resource "Stop"⟩, ⟨"note", .primitive .string []⟩])

end Travel

theorem goal_composes :
    let note := Value.str "note"
    let place := Travel.object [("place", .list [.str "label"])]
    let both := [(Value.str "place", Value.list [.str "label"]), (.str "note", .list [])]
    let placed : Level := ⟨[], [.nested "place" [.field "label"]],
      [.field "note", .nested "place" [.field "label"]]⟩
    let work (fields : List Value) :=
      descend Travel.catalog none Travel.goal (.list fields) ["goal"]
    Site.ofPosition Travel.catalog Travel.goal ≠ .closed ∧
      work [note, place] = .ok placed ∧
      work [note, place] = (do
        let a ← work [note]
        let b ← work [place]
        return a ++ b) ∧
      work [.mapping both] = work (Selection.singles both) ∧
      ∃ l, work [place, note] = .ok l ∧ placed.Perm l := by
  intro note place both placed work
  have held : Site.ofPosition Travel.catalog Travel.goal ≠ .closed := by
    simp [Travel.goal, Site.ofPosition, Site.ofType]
  have accepted : work [note, place] = .ok placed := by
    with_unfolding_all rfl
  have read : Selection.read
      ((Site.ofPosition Travel.catalog Travel.goal).resolve Travel.catalog)
      ["goal"] ([note] ++ [place]) =
        .ok [⟨"note", "note", .bare⟩, ⟨"place", "place", .keyed (.list [.str "label"])⟩] := by
    with_unfolding_all rfl
  have readBoth : Selection.read
      ((Site.ofPosition Travel.catalog Travel.goal).resolve Travel.catalog)
      ["goal"] ([] ++ .mapping both :: []) =
        .ok [⟨"place", "place", .keyed (.list [.str "label"])⟩,
          ⟨"note", "note", .keyed (.list [])⟩] := by
    with_unfolding_all rfl
  obtain ⟨composed, spread, ordered⟩ :=
    descend_composes Travel.catalog none Travel.goal ["goal"] held
  exact ⟨held, accepted, composed _ _ _ read fun _ => ⟨by simp, by simp⟩,
    spread [] [] both _ readBoth fun _ => by simp [Selection.singles, both],
    ordered _ _ placed (.swap _ _ _) accepted⟩

/-- A list of nothing but an empty mapping asks for no member of a union and is not turned
down, while the empty list is. -/
theorem empty_mapping_counts :
    (∃ entries, Selection.read
      ((Site.ofPosition Travel.catalog Travel.goal).resolve Travel.catalog)
      ["goal"] ([] ++ .mapping [] :: []) = .ok entries) ∧
    descend Travel.catalog none Travel.goal (.list ([] ++ .mapping [] :: [])) ["goal"] =
      .ok .empty ∧
    descend Travel.catalog none Travel.goal (.list ([] ++ Selection.singles [] ++ [])) ["goal"] =
      .error (.rejected ⟨.requiresFieldSelection, ["goal"], some "goal",
        [("reason", .str "union")]⟩) := by
  refine ⟨⟨[], ?_⟩, ?_, ?_⟩
  · with_unfolding_all rfl
  · with_unfolding_all rfl
  · with_unfolding_all rfl

end FieldPlan
