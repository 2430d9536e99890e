import FieldPlan.Arguments
import FieldPlan.Proofs.Schema.Followed

/-! Values of the types that clients get for arguments, against the check of the values that they
send. The two know the kinds of scalars each by a table of their own, and disagree on some. -/
namespace FieldPlan

/-- Scalars, arrays and maps inside each other. -/
inductive TypeRef.IsSimple : TypeRef → Prop
  | primitive (kind : Primitive) (oneOf : List String) : IsSimple (.primitive kind oneOf)
  | array {item : TypeRef} (inside : IsSimple item) : IsSimple (.array item)
  | map {slots : List (Slot TypeRef)} (inside : ∀ slot ∈ slots, IsSimple slot.type) :
      IsSimple (.map slots)

namespace TypeExpr

def Basic (name : String) : Value → Prop
  | .str _ => name = "string" ∨ name = "any"
  | .int _ => name = "number" ∨ name = "any"
  | .float _ => name = "number" ∨ name = "any"
  | .bool _ => name = "boolean" ∨ name = "any"
  | .null => name = "null" ∨ name = "any"
  | .mapping _ => name = "Record<string, any>" ∨ name = "any"
  | _ => name = "any"

/-- The value is of the type, where `reading` tells which text is written between quotes. -/
inductive Inhabits (reading : String → Option String) : TypeExpr → Value → Prop
  | named {name : String} {v : Value} (basic : Basic name v) : Inhabits reading (.named name) v
  | literal {written s : String} (read : reading written = some s) :
      Inhabits reading (.literal written) (.str s)
  | array {item : TypeExpr} {items : List Value} (each : ∀ v ∈ items, Inhabits reading item v) :
      Inhabits reading (.array item) (.list items)
  | union {options : List TypeExpr} {option : TypeExpr} {v : Value} (listed : option ∈ options)
      (inside : Inhabits reading option v) : Inhabits reading (.union options) v
  | object {members : List (TypeMember TypeExpr)} {entries : List (Value × Value)}
      (there : ∀ m ∈ members, m.isOptional = false → (Value.lookup entries m.name).isSome = true)
      (each : ∀ m ∈ members, ∀ v, Value.lookup entries m.name = some v →
        Inhabits reading m.type v) :
      Inhabits reading (.object members) (.mapping entries)

end TypeExpr

namespace Arguments
open TypeExpr Schema

/-- The check refuses the value though clients may take it for one of the type. -/
inductive Mistaken : TypeRef → Value → Prop
  | duration (s : String) : Mistaken (.primitive .duration []) (.str s)
  | integer (x : Binary64) : Mistaken (.primitive .integer []) (.float x)
  | unlisted {kind : Primitive} {oneOf : List String} {s : String} (listing : oneOf ≠ [])
      (absent : s ∉ oneOf) : Mistaken (.primitive kind oneOf) (.str s)
  | item {t : TypeRef} {items : List Value} {v : Value} (member : v ∈ items)
      (inside : Mistaken t v) : Mistaken (.array t) (.list items)

variable {reading : String → Option String} {c : Catalog} {formatter : Formatter} {form : Form}
variable {t : TypeRef} {v : Value}

theorem direct_simple (h : t.IsSimple) : t.direct = [] := by
  induction h with
  | primitive kind oneOf => rfl
  | array inside ih => exact ih
  | @map slots inside ih =>
    refine List.eq_nil_iff_forall_not_mem.2 fun m member => ?_
    obtain ⟨slot, listed, mention⟩ := TypeRef.mem_slotMentions.1 member
    have none := ih slot listed
    rw [TypeRef.direct] at none
    rw [none] at mention
    exact List.not_mem_nil mention

theorem simple_resolves (h : t.IsSimple) : c.Resolves t := by
  intro m mention
  rw [direct_simple h] at mention
  exact absurd mention List.not_mem_nil

theorem Mistaken.not_null (h : Mistaken t v) : v.isNull = false := by
  cases h <;> rfl

/-! ### Scalars -/

theorem fits_of_basic {kind : Primitive} (h : Basic (primitiveName kind) v) :
    fitsPrimitive kind v = true ↔
      ¬((kind = .duration ∧ ∃ s, v = .str s) ∨ (kind = .integer ∧ ∃ x, v = .float x)) := by
  cases v <;> cases kind <;>
    simp_all [Basic, primitiveName, fitsPrimitive, isText, isNumber]

theorem mistaken_primitive {kind : Primitive} : Mistaken (.primitive kind []) v ↔
    (kind = .duration ∧ ∃ s, v = .str s) ∨ (kind = .integer ∧ ∃ x, v = .float x) := by
  constructor
  · intro h
    cases h with
    | duration s => exact Or.inl ⟨rfl, s, rfl⟩
    | integer x => exact Or.inr ⟨rfl, x, rfl⟩
    | unlisted listing absent => exact absurd rfl listing
  · rintro (⟨rfl, s, rfl⟩ | ⟨rfl, x, rfl⟩)
    · exact .duration s
    · exact .integer x

theorem fits_primitive {kind : Primitive} {oneOf : List String} {e : TypeExpr}
    (written : typeExpr c formatter form (.primitive kind oneOf) = .ok e)
    (h : Inhabits reading e v) :
    fits (.primitive kind oneOf) v = true ↔ ¬Mistaken (.primitive kind oneOf) v := by
  cases oneOf with
  | nil =>
    cases written
    cases h with
    | named basic => rw [fits, fits_of_basic basic, mistaken_primitive]
  | cons first rest =>
    cases written
    cases h with
    | union listed inside =>
      obtain ⟨value, -, rfl⟩ := List.mem_map.1 listed
      cases inside with
      | @literal _ s read =>
        -- the text that is read need not be the listed one
        have checked : fits (.primitive kind (first :: rest)) (.str s) = true ↔ s ∈ first :: rest :=
          List.contains_iff_mem
        rw [checked]
        constructor
        · intro present mistaken
          cases mistaken with
          | unlisted listing absent => exact absent present
        · intro right
          by_contra absent
          exact right (.unlisted (List.cons_ne_nil first rest) absent)

/-! ### Arrays and maps -/

theorem fits_array {item : TypeRef} {items : List Value}
    (each : ∀ v ∈ items, fits item v = true ↔ ¬Mistaken item v) :
    fits (.array item) (.list items) = true ↔ ¬Mistaken (.array item) (.list items) := by
  rw [fits, List.all_eq_true]
  constructor
  · intro all mistaken
    cases mistaken with
    | @item _ _ v member inside =>
      have accepted := all v member
      rw [inside.not_null, Bool.false_or] at accepted
      exact (each v member).1 accepted inside
  · intro right v member
    rw [Bool.or_eq_true]
    exact Or.inr ((each v member).2 fun inside => right (.item member inside))

theorem fits_map {slots : List (Slot TypeRef)} {e : TypeExpr}
    (written : typeExpr c formatter form (.map slots) = .ok e) (h : Inhabits reading e v) :
    fits (.map slots) v = true ↔ ¬Mistaken (.map slots) v := by
  have mapping : ∃ entries, v = .mapping entries := by
    rw [typeExpr, typeExprWith] at written
    split at written
    · cases written
      cases h with
      | named basic => cases v <;> simp_all [Basic]
    · obtain ⟨members, -, rfl⟩ := Outcome.map_ok written
      cases h with
      | @object _ entries there each => exact ⟨entries, rfl⟩
  obtain ⟨entries, rfl⟩ := mapping
  refine iff_of_true rfl fun mistaken => ?_
  cases mistaken

theorem inhabitant_fits (simple : t.IsSimple) {e : TypeExpr}
    (written : typeExpr c formatter form t = .ok e) (h : Inhabits reading e v) :
    fits t v = true ↔ ¬Mistaken t v := by
  induction simple generalizing e v with
  | primitive kind oneOf => exact fits_primitive written h
  | array inside ih =>
    rw [typeExpr, typeExprWith] at written
    obtain ⟨item, same, rfl⟩ := Outcome.map_ok written
    cases h with
    | array each => exact fits_array fun v member => ih same (each v member)
  | map inside ih => exact fits_map written h

/-- A type of scalars, arrays and maps can be written. The check accepts a value of the written
type just if the value has nowhere in its arrays a text for a duration, a float for an integer or
a text that is not among the listed ones. -/
theorem inhabitant_fits_iff (reading : String → Option String) (c : Catalog)
    (formatter : Formatter) (simple : t.IsSimple) :
    ∃ e, typeExpr c formatter .input t = .ok e ∧ ∀ v, Inhabits reading e v →
      (fits t v = true ↔ ¬Mistaken t v) ∧
      ∀ a : Argument, a.type = t → v.isNull = false → (problem? a v = none ↔ ¬Mistaken t v) := by
  have expressed : ∃ e, typeExpr c formatter .input t = .ok e :=
    typeExpr_isOk.2 (simple_resolves simple)
  obtain ⟨e, written⟩ := expressed
  refine ⟨e, written, fun v h => ?_⟩
  have accepted := inhabitant_fits simple written h
  refine ⟨accepted, ?_⟩
  rintro a rfl present
  rw [← accepted, problem?, if_neg (by simp [present])]
  split <;> simp_all

/-- Durations are written as texts, and no text is taken for one. -/
theorem duration_text_refused :
    TypeRef.IsSimple (.array (.primitive .duration [])) ∧
      ∃ e, typeExpr ⟨[], []⟩ .camelCase .input (.array (.primitive .duration [])) = .ok e ∧
        Inhabits some e (.list [.str "PT1H"]) ∧
        fits (.array (.primitive .duration [])) (.list [.str "PT1H"]) = false := by
  have simple : TypeRef.IsSimple (.array (.primitive .duration [])) := .array (.primitive _ _)
  obtain ⟨e, written, accepted⟩ := inhabitant_fits_iff some ⟨[], []⟩ .camelCase simple
  have texts : e = .array (.named "string") := (Except.ok.inj written).symm
  have inhabits : Inhabits some e (.list [.str "PT1H"]) := by
    rw [texts]
    refine .array fun v member => ?_
    rw [List.mem_singleton.1 member]
    exact .named (Or.inl rfl)
  refine ⟨simple, e, written, inhabits, eq_false_of_ne_true fun fitting => ?_⟩
  exact (accepted _ inhabits).1.1 fitting (.item (List.mem_singleton_self _) (.duration "PT1H"))

end Arguments
end FieldPlan
