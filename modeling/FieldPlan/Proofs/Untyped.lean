import FieldPlan.Proofs.Offence

/-! Selections on untyped values. Such a selection is copied, level by level, and nothing of it is
fetched. At each level the whole list is looked at before anything nested in it; what is nested has
to be a level again, but a blank value in the place of a level is let through as an empty one. -/
namespace FieldPlan
namespace Selection

/-- The elements of a level. A mapping stands for the list of just itself. -/
def level? : Value → Option (List Value)
  | .list fields => some fields
  | .mapping entries => some [.mapping entries]
  | _ => none

/-- Levels of distinct names down to the last. What is neither a list nor a mapping may stand in
the place of a level only if it is one of `others`. -/
inductive IsTree (others : Value → Prop) : Value → Prop
  | level {v : Value} {fields : List Value} : level? v = some fields → WellFormed fields →
      (fieldNames id fields).Nodup →
      (∀ entry ∈ entriesOf id fields, ∀ nested, entry.request.nested? = some nested →
        IsTree others nested) → IsTree others v
  | other {v : Value} : level? v = none → others v → IsTree others v

def IsHole (v : Value) : Prop := level? v = none ∧ v.isBlank = true

inductive HasHole : Value → Prop
  | here {v : Value} : IsHole v → HasHole v
  | nested {v nested : Value} {fields : List Value} {entry : Entry} : level? v = some fields →
      entry ∈ entriesOf id fields → entry.request.nested? = some nested → HasHole nested → HasHole v

mutual
/-- The selection as a template, mappings and pairs flattened. -/
def copy : Value → List TemplateItem
  | .list fields => copyElements fields
  | .mapping entries => copyEntries entries
  | _ => []

def copyElements : List Value → List TemplateItem
  | [] => []
  | .str name :: rest => .field name :: copyElements rest
  | .mapping entries :: rest => copyEntries entries ++ copyElements rest
  | .tuple [.str name, nested] :: rest => .nested name (copy nested) :: copyElements rest
  | _ :: rest => copyElements rest

def copyEntries : List (Value × Value) → List TemplateItem
  | [] => []
  | (.str name, nested) :: rest => .nested name (copy nested) :: copyEntries rest
  | _ :: rest => copyEntries rest
end

/-- Why a selection is turned down: the first of its levels with anything wrong, a level being
looked at before what is nested in it. -/
inductive Breaks : List String → Value → Rejection → Prop
  | shape {path : List String} {v : Value} : level? v = none → v.isBlank = false →
      Breaks path v ⟨.unsupportedFieldCombination, path, path.getLast?, [("kind", .str "any")]⟩
  | level {path : List String} {v : Value} {fields : List Value} {r : Rejection} :
      level? v = some fields → Faulty id path fields r → Breaks path v r
  | nested {path : List String} {v inner : Value} {fields : List Value} {before after : List Entry}
      {entry : Entry} {r : Rejection} : level? v = some fields → WellFormed fields →
      (fieldNames id fields).Nodup → entriesOf id fields = before ++ entry :: after →
      (∀ earlier ∈ before, ∀ nested, earlier.request.nested? = some nested →
        IsTree (·.isBlank = true) nested) →
      entry.request.nested? = some inner → Breaks (path ++ [entry.name]) inner r → Breaks path v r

variable {others : Value → Prop} {v : Value} {fields : List Value} {path : List String}

/-! ### Copies -/

def copyEntry (entry : Entry) : TemplateItem :=
  match entry.request.nested? with
  | none => .field entry.name
  | some nested => .nested entry.name (copy nested)

theorem copyEntries_eq {mapping : List (Value × Value)} {names : List (String × Request)}
    (h : mapping.map (fun entry => (entry.1, Request.keyed entry.2)) =
      names.map fun n => (.str n.1, n.2)) :
    copyEntries mapping = names.map fun n => copyEntry (entryOf id n) := by
  induction mapping generalizing names with
  | nil =>
    rw [List.map_nil, eq_comm, List.map_eq_nil_iff] at h
    rw [h]
    rfl
  | cons first rest ih =>
    cases names with
    | nil => cases h
    | cons n names =>
      obtain ⟨name, request⟩ := n
      obtain ⟨key, nested⟩ := first
      rw [List.map_cons, List.map_cons, List.cons.injEq, Prod.mk.injEq] at h
      obtain ⟨⟨text, asked⟩, others⟩ := h
      change key = .str name at text
      change Request.keyed nested = request at asked
      subst text asked
      rw [copyEntries, ih others]
      rfl

theorem copyElements_cons {element : Value} {names : List (String × Request)}
    (h : Asks element names) (rest : List Value) : copyElements (element :: rest) =
      names.map (fun n => copyEntry (entryOf id n)) ++ copyElements rest := by
  obtain ⟨shape, -⟩ := h
  unfold requests? at shape
  split at shape
  · next s =>
    rw [Option.some.injEq, eq_comm, List.map_eq_singleton_iff] at shape
    obtain ⟨⟨spelled, request⟩, rfl, asked⟩ := shape
    cases asked
    rfl
  · next mapping =>
    rw [Option.some.injEq] at shape
    rw [copyElements, copyEntries_eq shape]
  · next name nested =>
    rw [Option.some.injEq, eq_comm, List.map_eq_singleton_iff] at shape
    obtain ⟨⟨spelled, request⟩, rfl, asked⟩ := shape
    cases asked
    rfl
  · cases shape

theorem copyElements_eq (h : WellFormed fields) :
    copyElements fields = (entriesOf id fields).map copyEntry := by
  induction fields with
  | nil => rfl
  | cons element rest ih =>
    obtain ⟨⟨names, asks⟩, formed⟩ := List.forall_mem_cons.1 h
    rw [copyElements_cons asks, entriesOf_cons id rest asks, List.map_append, List.map_map,
      ih formed]
    rfl

theorem copy_eq (h : level? v = some fields) (formed : WellFormed fields) :
    copy v = (entriesOf id fields).map copyEntry := by
  rw [← copyElements_eq formed]
  cases v with
  | list items =>
    cases h
    rfl
  | mapping entries =>
    cases h
    exact (List.append_nil _).symm
  | _ => cases h

theorem copy_other (h : level? v = none) : copy v = [] := by
  cases v with
  | list | mapping => cases h
  | _ => rfl

theorem weights_level (h : level? v = some fields) : Value.weights fields = v.weight := by
  cases v with
  | list items =>
    cases h
    rfl
  | mapping entries =>
    cases h
    rfl
  | _ => cases h

/-! ### Holes -/

theorem IsTree.mono {others others' : Value → Prop} (more : ∀ v, others v → others' v)
    (h : IsTree others v) : IsTree others' v := by
  induction h with
  | level shape formed distinct _ ih => exact .level shape formed distinct ih
  | other shape allowed => exact .other shape (more _ allowed)

theorem IsTree.no_hole (h : IsTree (fun _ => False) v) : ¬HasHole v := by
  induction h with
  | other _ allowed => exact allowed.elim
  | level shape formed distinct inner ih =>
    intro hole
    cases hole with
    | here hole =>
      rw [hole.1] at shape
      cases shape
    | nested shape' member asked deeper =>
      rw [shape] at shape'
      cases shape'
      exact ih _ member _ asked deeper

theorem isTree_iff : IsTree (fun _ => False) v ↔ IsTree (·.isBlank = true) v ∧ ¬HasHole v := by
  constructor
  · exact fun h => ⟨h.mono nofun, h.no_hole⟩
  · rintro ⟨h, whole⟩
    induction h with
    | other shape blank => exact absurd (.here ⟨shape, blank⟩) whole
    | level shape formed distinct _ ih =>
      refine .level shape formed distinct fun entry member nested asked => ?_
      exact ih entry member nested asked fun hole => whole (.nested shape member asked hole)

end Selection

/-! ### The work on an untyped value -/

namespace Descent
open Selection
variable {c : Catalog} {e : Exposure} {path : List String} {v : Value} {fields : List Value}
  {r : Rejection}

/-- A level is read and its entries are worked on; in the place of one only what is blank does. -/
theorem descend_untyped (c : Catalog) (e : Exposure) (v : Value) (path : List String) :
    descend c e .untyped v path = match level? v with
      | some fields => do
        let entries ← Selection.read id path fields
        collect (untypedEntry (descend c e) path) entries
      | none => if v.isBlank then .ok .empty else unsupported path "any" := by
  rw [descend_eq]
  cases v with
  | list fields => cases fields <;> rfl
  | mapping entries => cases entries <;> rfl
  | _ => rfl

theorem collect_copies {part : Entry → Outcome Level} {entries : List Entry}
    (each : ∀ entry ∈ entries, part entry = .ok (shape (copyEntry entry))) :
    collect part entries = .ok ⟨[], [], entries.map copyEntry⟩ := by
  induction entries with
  | nil => rfl
  | cons entry rest ih =>
    obtain ⟨first, others⟩ := List.forall_mem_cons.1 each
    rw [collect, first, ih others]
    rfl

theorem collect_fails {part : Entry → Outcome Level} {before after : List Entry} {entry : Entry}
    {failure : Failure} (each : ∀ earlier ∈ before, ∃ l, part earlier = .ok l)
    (fails : part entry = .error failure) :
    collect part (before ++ entry :: after) = .error failure := by
  induction before with
  | nil =>
    rw [List.nil_append, collect, fails]
    rfl
  | cons first before ih =>
    obtain ⟨⟨l, worked⟩, others⟩ := List.forall_mem_cons.1 each
    rw [List.cons_append, collect, worked, ih others]
    rfl

theorem untypedEntry_ok {entry : Entry}
    (h : ∀ nested, entry.request.nested? = some nested →
      descend c e .untyped nested (path ++ [entry.name]) = .ok ⟨[], [], copy nested⟩) :
    untypedEntry (descend c e) path entry = .ok (shape (copyEntry entry)) := by
  unfold untypedEntry copyEntry
  cases asked : entry.request.nested? with
  | none => rfl
  | some nested =>
    simp only
    rw [h nested asked]
    rfl

theorem descend_tree (h : IsTree (·.isBlank = true) v) :
    descend c e .untyped v path = .ok ⟨[], [], copy v⟩ := by
  induction h generalizing path with
  | other shape blank =>
    rw [descend_untyped, shape, copy_other shape]
    exact if_pos blank
  | @level v fields shape formed distinct _ ih =>
    have read : Selection.read id path fields = .ok (entriesOf id fields) :=
      read_ok_iff.2 ⟨formed, rfl, distinct⟩
    rw [descend_untyped, shape, copy_eq shape formed]
    simp only
    rw [read]
    exact collect_copies fun entry member => untypedEntry_ok fun nested asked =>
      ih entry member nested asked

theorem descend_breaks (h : Breaks path v r) :
    descend c e .untyped v path = .error (.rejected r) := by
  induction h with
  | @shape path v shape there =>
    rw [descend_untyped, shape]
    simp only
    rw [there, if_neg Bool.false_ne_true]
    rfl
  | level shape faulty =>
    rw [descend_untyped, shape]
    simp only
    rw [faulty.read]
    rfl
  | @nested path v inner fields before after entry r shape formed distinct split trees asked _ ih =>
    have read : Selection.read id path fields = .ok (before ++ entry :: after) :=
      read_ok_iff.2 ⟨formed, split.symm, split ▸ distinct⟩
    have stops : untypedEntry (descend c e) path entry = .error (.rejected r) := by
      rw [untypedEntry, asked]
      simp only
      rw [ih]
      rfl
    rw [descend_untyped, shape]
    simp only
    rw [read]
    refine collect_fails (fun earlier member => ⟨Descent.shape (copyEntry earlier), ?_⟩) stops
    exact untypedEntry_ok fun nested asked => descend_tree (trees earlier member nested asked)

theorem nested_or_first (p : Value → Prop) (entries : List Entry) :
    (∀ entry ∈ entries, ∀ nested, entry.request.nested? = some nested → p nested) ∨
      ∃ before entry after inner, entries = before ++ entry :: after ∧
        (∀ earlier ∈ before, ∀ nested, earlier.request.nested? = some nested → p nested) ∧
        entry.request.nested? = some inner ∧ ¬p inner := by
  rcases forall_or_first (fun entry => ∀ nested, entry.request.nested? = some nested → p nested)
    entries with all | ⟨before, entry, after, split, earlier, wrong⟩
  · exact Or.inl all
  · rw [Classical.not_forall] at wrong
    obtain ⟨inner, wrong⟩ := wrong
    rw [Classical.not_imp] at wrong
    exact Or.inr ⟨before, entry, after, inner, split, earlier, wrong⟩

/-- A selection is a tree or breaks at some level. -/
theorem tree_or_breaks (path : List String) (v : Value) :
    IsTree (·.isBlank = true) v ∨ ∃ r, Breaks path v r := by
  induction size : v.weight using Nat.strongRecOn generalizing path v with
  | _ n ih =>
    subst size
    cases shape : level? v with
    | none =>
      cases blank : v.isBlank with
      | true => exact Or.inl (.other shape blank)
      | false => exact Or.inr ⟨_, .shape shape blank⟩
    | some fields =>
      rcases formed_or_faulty id path fields with ⟨formed, distinct⟩ | ⟨r, faulty⟩
      · rcases nested_or_first (IsTree (·.isBlank = true)) (entriesOf id fields) with
          all | ⟨before, entry, after, inner, split, earlier, asked, broken⟩
        · exact Or.inl (.level shape formed distinct all)
        · have member : entry ∈ entriesOf id fields := by
            rw [split]
            exact List.mem_append_right _ List.mem_cons_self
          have read : Selection.read id path fields = .ok (entriesOf id fields) :=
            read_ok_iff.2 ⟨formed, rfl, distinct⟩
          have lighter : inner.weight < v.weight := by
            rw [← weights_level shape]
            exact weight_read_lt read member asked
          have deeper := ih inner.weight lighter (path ++ [entry.name]) inner rfl
          obtain ⟨r, breaks⟩ := deeper.resolve_left broken
          exact Or.inr ⟨r, .nested shape formed distinct split earlier asked breaks⟩
      · exact Or.inr ⟨r, .level shape faulty⟩

/-- A selection on an untyped value is accepted just if it is a tree of levels with distinct names,
blank values standing for empty levels. Then nothing is fetched and the template is a copy of the
selection; otherwise the rejection is for the first level that breaks. The trees in which every
nested value is a list or a mapping are those without a hole. -/
theorem descend_untyped_iff (c : Catalog) (e : Exposure) (v : Value) (path : List String) :
    (∀ l, descend c e .untyped v path = .ok l ↔
      IsTree (·.isBlank = true) v ∧ l = ⟨[], [], copy v⟩) ∧
    (∀ failure, descend c e .untyped v path = .error failure ↔
      ∃ r, failure = .rejected r ∧ Breaks path v r) ∧
    (IsTree (fun _ => False) v ↔ IsTree (·.isBlank = true) v ∧ ¬HasHole v) := by
  have settled : (∀ l, descend c e .untyped v path = .ok l ↔
      IsTree (·.isBlank = true) v ∧ l = ⟨[], [], copy v⟩) ∧
      ∀ failure, descend c e .untyped v path = .error failure ↔
        ∃ r, failure = .rejected r ∧ Breaks path v r := by
    refine Outcome.settled ?_ ?_ ?_
    · intro l ⟨tree, same⟩
      rw [same]
      exact descend_tree tree
    · intro failure ⟨r, same, breaks⟩
      rw [same]
      exact descend_breaks breaks
    · rcases tree_or_breaks path v with tree | ⟨r, breaks⟩
      · exact Or.inl ⟨_, tree, rfl⟩
      · exact Or.inr ⟨_, r, rfl, breaks⟩
  exact ⟨settled.1, settled.2, isTree_iff⟩

/-- A null in the place of a level is copied as an empty one. -/
theorem null_copied :
    descend ⟨[], []⟩ none .untyped (.list [.str "a", .mapping [(.str "b", .null)]]) [] =
      .ok ⟨[], [], [.field "a", .nested "b" []]⟩ ∧
    ¬IsTree (fun _ => False) (.list [.str "a", .mapping [(.str "b", .null)]]) := by
  obtain ⟨accepted, -, proper⟩ :=
    descend_untyped_iff ⟨[], []⟩ none (.list [.str "a", .mapping [(.str "b", .null)]]) []
  have formed : WellFormed [.str "a", .mapping [(.str "b", .null)]] := by
    rw [WellFormed, List.forall_mem_cons, List.forall_mem_singleton]
    exact ⟨⟨[("a", .bare)], rfl, by decide⟩, ⟨[("b", .keyed .null)], rfl, by decide⟩⟩
  have tree : IsTree (·.isBlank = true) (.list [.str "a", .mapping [(.str "b", .null)]]) := by
    refine .level rfl formed (by decide) ?_
    intro entry member nested asked
    rcases List.mem_pair.1 member with rfl | rfl
    · cases asked
    · cases asked
      exact .other rfl rfl
  refine ⟨(accepted _).2 ⟨tree, rfl⟩, fun whole => (proper.1 whole).2 ?_⟩
  exact .nested rfl (List.mem_pair.2 (Or.inr rfl)) rfl (.here ⟨rfl, rfl⟩)

end Descent
end FieldPlan
