import FieldPlan.Proofs.Arrays
import FieldPlan.Proofs.Mirror
import FieldPlan.Proofs.Pointing.Fields
import FieldPlan.Proofs.Summaries
import Mathlib.Logic.Function.Iterate

/-! The work on a selection ends. A layer needs the work on selections that are lighter than its
own, or on the items of an array, so that the catalog may refer to itself as it likes. What is
accepted and what is turned down is no deeper than the selection. -/
namespace FieldPlan

/-! ### Calls -/

structure Call where
  position : Position
  selection : Value
  path : List String

namespace Call

def run (call : Call) (f : Descend) : Outcome Level := f call.position call.selection call.path

end Call

namespace Descent
variable {c : Catalog} {e : Exposure}

/-- One step of the work: a layer, or from an array to its items. -/
def step (c : Catalog) (e : Exposure) (f : Descend) : Descend
  | .value (.array item), selection, path => f (.ofType (some item)) selection path
  | position, selection, path => layer c e f position selection path

theorem step_layer {f : Descend} {position : Position}
    (other : ∀ item, position ≠ .value (.array item)) :
    step c e f position = layer c e f position := by
  funext selection path
  exact step.eq_2 c e f position selection path other

/-- What a step at one call gives depends on the work at another. -/
def Asks (c : Catalog) (e : Exposure) (there here : Call) : Prop :=
  ∃ f g : Descend, (∀ call : Call, call ≠ there → call.run f = call.run g) ∧
    here.run (step c e f) ≠ here.run (step c e g)

end Descent

namespace TypeRef

def arrayLevels : TypeRef → Nat
  | .array item => item.arrayLevels + 1
  | _ => 0

end TypeRef

namespace Position

def arrayLevels : Position → Nat
  | .value t => t.arrayLevels
  | _ => 0

end Position

namespace Descent
variable (c : Catalog) (e : Exposure)

end Descent

/-! ### How deep a selection is -/

namespace Selection

mutual
/-- The levels with entries in a selection, one below the other, wherever it is used. -/
def levels : Value → Nat
  | .list items => itemLevels items
  | .mapping entries => entryLevels entries
  | _ => 0

def itemLevels : List Value → Nat
  | [] => 0
  | item :: rest => max (elementLevels item) (itemLevels rest)

def elementLevels : Value → Nat
  | .str _ => 1
  | .mapping entries => entryLevels entries
  | .tuple [_, nested] => levels nested + 1
  | _ => 0

def entryLevels : List (Value × Value) → Nat
  | [] => 0
  | (_, nested) :: rest => max (levels nested + 1) (entryLevels rest)
end

theorem levels_le_entryLevels {key nested : Value} {entries : List (Value × Value)}
    (member : (key, nested) ∈ entries) : levels nested + 1 ≤ entryLevels entries := by
  induction entries with
  | nil => contradiction
  | cons entry rest ih =>
    rw [entryLevels]
    rcases List.mem_cons.1 member with rfl | later
    · exact Nat.le_max_left _ _
    · exact Nat.le_trans (ih later) (Nat.le_max_right _ _)

theorem levels_le_elementLevels {element key : Value} {requests : List (Value × Request)}
    {request : Request} (h : requests? element = some requests)
    (member : (key, request) ∈ requests) :
    request.nested?.elim 0 levels + 1 ≤ elementLevels element := by
  unfold requests? at h
  split at h
  · cases h
    obtain ⟨rfl, rfl⟩ := Prod.mk.inj (List.mem_singleton.1 member)
    exact Nat.le_refl 1
  · cases h
    obtain ⟨entry, found, same⟩ := List.mem_map.1 member
    obtain ⟨rfl, rfl⟩ := Prod.mk.inj same
    exact levels_le_entryLevels found
  · cases h
    obtain ⟨rfl, rfl⟩ := Prod.mk.inj (List.mem_singleton.1 member)
    exact Nat.le_refl _
  · contradiction

theorem levels_le_itemLevels {fields : List Value} {key : Value} {request : Request}
    (member : (key, request) ∈ walk fields) :
    request.nested?.elim 0 levels + 1 ≤ itemLevels fields := by
  induction fields with
  | nil => contradiction
  | cons element rest ih =>
    rw [itemLevels]
    rw [walk, List.flatMap_cons] at member
    rcases List.mem_append.1 member with here | later
    · cases asked : requests? element with
      | none => simp [asked] at here
      | some requests =>
        rw [asked, Option.getD_some] at here
        exact Nat.le_trans (levels_le_elementLevels asked here) (Nat.le_max_left _ _)
    · exact Nat.le_trans (ih later) (Nat.le_max_right _ _)

theorem levels_normalize (v : Value) : levels (normalize v) = levels v := by
  unfold normalize
  split
  · simp [levels, itemLevels, elementLevels]
  · rfl

theorem levels_le {selection : Value} {request : Value × Request}
    (member : request ∈ requested selection) :
    request.2.nested?.elim 0 levels + 1 ≤ levels selection := by
  rw [← levels_normalize]
  unfold requested at member
  split at member
  · next fields same =>
    rw [same, levels]
    exact levels_le_itemLevels member
  · contradiction

theorem levels_get?_lt {v nested : Value} {key : String} (h : v.get? key = some nested) :
    levels nested < levels v := by
  cases v with
  | mapping entries =>
    simp only [Value.get?, Value.lookup, Option.map_eq_some_iff] at h
    obtain ⟨entry, found, rfl⟩ := h
    have member : (entry.1, entry.2) ∈ entries := List.mem_of_find?_eq_some found
    rw [levels]
    exact levels_le_entryLevels member
  | _ => simp [Value.get?] at h

end Selection

namespace Site
variable {c : Catalog} {s t : Site}

theorem levels_given_le (s : Site) (name : String) (v : Value) :
    Selection.levels (s.given c name v) ≤ Selection.levels v := by
  have fields (rest : Value) (le : Selection.levels rest ≤ Selection.levels v) :
      Selection.levels ((v.get? Arguments.fieldsKey).getD rest) ≤ Selection.levels v := by
    cases found : v.get? Arguments.fieldsKey with
    | none => exact le
    | some nested => exact Nat.le_of_lt (Selection.levels_get?_lt found)
  unfold given
  split
  · exact fields .null (Nat.zero_le _)
  · exact fields v (Nat.le_refl _)
  · exact fields v (Nat.le_refl _)
  · exact Nat.le_refl _

/-- Where a request leads: to the site under its name, with the nested selection on it. -/
def below (c : Catalog) (s : Site) : Value × Request → Option (Site × Value)
  | (.str spelled, request) => do
    let nested ← request.nested?
    let t ← s.under c (s.resolve c spelled)
    return (t, s.given c (s.resolve c spelled) nested)
  | _ => none

theorem below_asked {spelled : String} {request : Request} {v : Value}
    (asked : request.nested? = some v) (under : s.under c (s.resolve c spelled) = some t) :
    s.below c (.str spelled, request) = some (t, s.given c (s.resolve c spelled) v) := by
  simp [below, asked, under]

theorem levels_below_lt {selection nested : Value} {request : Value × Request}
    (member : request ∈ Selection.requested selection)
    (leads : s.below c request = some (t, nested)) :
    Selection.levels nested < Selection.levels selection := by
  have lighter := Selection.levels_le member
  unfold below at leads
  split at leads
  · next spelled request =>
    simp only [Option.bind_eq_bind, Option.bind_eq_some_iff] at leads
    obtain ⟨v, asked, t', under, same⟩ := leads
    obtain ⟨rfl, rfl⟩ := Prod.mk.inj (Option.some.inj same)
    have given := levels_given_le (c := c) s (s.resolve c spelled) v
    rw [asked, Option.elim_some] at lighter
    omega
  · contradiction

/-- The levels with entries in a selection on a site, one below the other. Only what can be
reached from the site counts, and of an object form only its fields. -/
def nesting (c : Catalog) (s : Site) (selection : Value) : Nat :=
  ((Selection.requested selection).map fun request =>
    match s.below c request with
    | none => 1
    | some (t, nested) =>
      if _ : Selection.levels nested < Selection.levels selection then nesting c t nested + 1
      else 1).foldr max 0
termination_by Selection.levels selection

theorem foldr_max_le_iff {depths : List Nat} {n : Nat} :
    depths.foldr max 0 ≤ n ↔ ∀ depth ∈ depths, depth ≤ n := by
  induction depths with
  | nil => simp
  | cons depth rest ih => rw [List.foldr_cons, Nat.max_le, ih, List.forall_mem_cons]

theorem nesting_le_iff {selection : Value} {n : Nat} :
    s.nesting c selection ≤ n ↔ ∀ request ∈ Selection.requested selection, 1 ≤ n ∧
      ∀ t nested, s.below c request = some (t, nested) → t.nesting c nested + 1 ≤ n := by
  rw [nesting, foldr_max_le_iff, List.forall_mem_map]
  refine forall₂_congr fun request member => ?_
  cases leads : s.below c request with
  | none => simp
  | some here =>
    obtain ⟨t, nested⟩ := here
    simp only [dif_pos (levels_below_lt member leads), Option.some.injEq, Prod.mk.injEq]
    constructor
    · intro short
      refine ⟨Nat.le_trans (Nat.le_add_left 1 _) short, ?_⟩
      intro t nested same
      obtain ⟨rfl, rfl⟩ := same
      exact short
    · intro short
      exact short.2 t nested ⟨rfl, rfl⟩

theorem one_le_nesting {selection : Value} {request : Value × Request}
    (member : request ∈ Selection.requested selection) : 1 ≤ s.nesting c selection :=
  (nesting_le_iff.1 (Nat.le_refl _) request member).1

theorem nesting_below {selection nested : Value} {request : Value × Request}
    (member : request ∈ Selection.requested selection)
    (leads : s.below c request = some (t, nested)) :
    t.nesting c nested + 1 ≤ s.nesting c selection :=
  (nesting_le_iff.1 (Nat.le_refl _) request member).2 t nested leads

end Site

/-! ### What comes out -/

namespace TemplateItem

mutual
def levels : TemplateItem → Nat
  | .field _ => 1
  | .nested _ items => levelsOf items + 1

def levelsOf : List TemplateItem → Nat
  | [] => 0
  | item :: rest => max item.levels (levelsOf rest)
end

end TemplateItem

variable {c : Catalog} {s t : Site} {requests final : List (Value × Request)}

theorem Mirrors.levels_le {items : List TemplateItem} (h : Mirrors c s requests items)
    {selection : Value} (asked : requests ⊆ Selection.requested selection) :
    TemplateItem.levelsOf items ≤ s.nesting c selection := by
  induction h generalizing selection with
  | nil s => exact Nat.zero_le _
  | bare others ih =>
    obtain ⟨here, later⟩ := List.cons_subset.1 asked
    exact Nat.max_le.2 ⟨Site.one_le_nesting here, ih later⟩
  | whole nested whole others ih =>
    obtain ⟨here, later⟩ := List.cons_subset.1 asked
    exact Nat.max_le.2 ⟨Site.one_le_nesting here, ih later⟩
  | nested nested whole under inner others innerIh ih =>
    obtain ⟨here, later⟩ := List.cons_subset.1 asked
    have deeper := Site.nesting_below here (Site.below_asked nested under)
    have inside := innerIh (List.Subset.refl _)
    exact Nat.max_le.2 ⟨Nat.le_trans (Nat.succ_le_succ inside) deeper, ih later⟩

theorem Asked.levels_le {way : List String} (h : Asked c s requests way t final)
    {selection : Value} (asked : requests ⊆ Selection.requested selection) :
    ∃ last, final ⊆ Selection.requested last ∧
      way.length + t.nesting c last ≤ s.nesting c selection := by
  induction h generalizing selection with
  | here s requests => exact ⟨selection, asked, by simp⟩
  | down member nested under onward ih =>
    obtain ⟨last, within, short⟩ := ih (List.Subset.refl _)
    have deeper := Site.nesting_below (asked member) (Site.below_asked nested under)
    refine ⟨last, within, ?_⟩
    rw [List.length_cons]
    omega

theorem Rejection.At.length_le {r : Rejection} {way : List String} {last : Value}
    (h : r.At c way t final) (within : final ⊆ Selection.requested last) :
    r.path.length ≤ way.length + t.nesting c last := by
  cases h with
  | level path =>
    rw [path]
    exact Nat.le_add_right _ _
  | entry asked path =>
    rw [path, List.length_append]
    exact Nat.add_le_add_left (Site.one_le_nesting (within asked)) _
  | spelled asked unknown path =>
    rw [path, List.length_append]
    exact Nat.add_le_add_left (Site.one_le_nesting (within asked)) _

section
variable {root action : String} {selection : Value} {e : Exposure}

end

namespace Ring

def total : Aggregate where
  name := "total"
  kind := .sum
  path := ["next"]
  field := some "size"

def grand : Aggregate where
  name := "grand"
  kind := .list
  path := ["next"]
  field := some "total"

def node : Resource where
  name := "Node"
  attributes := [
    { name := "size", type := .primitive .integer [] },
    { name := "part", type := .array (.resource "Part") },
    { name := "knot", type := .typedStruct "Knot" }]
  calculations := [{ name := "self", type := .resource "Node" }]
  aggregates := [total, grand]
  relationships := [{ name := "next", destination := "Node" }]
  actions := [{ name := "read" }]

def part : Resource where
  name := "Part"
  embedded := true
  attributes := [
    { name := "tag", type := .primitive .string [] },
    { name := "inner", type := .resource "Part" }]

def knot : StructDef where
  name := "Knot"
  slots := [⟨"knot", .typedStruct "Knot", true⟩]

def catalog : Catalog := ⟨[node, part], [knot]⟩

/-- Once around, and into itself at every stop. -/
def around : Value :=
  .list [Travel.object [
    ("next", .list [.str "grand",
      Travel.object [("self", Travel.object [("next", .list [.str "total"])])]]),
    ("part", Travel.object [("inner", Travel.object [("inner", .list [.str "tag"])])])]]

end Ring

end FieldPlan
