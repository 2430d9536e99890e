import FieldPlan.Proofs.Mention
import FieldPlan.Proofs.Schema.Reference

/-! When a type has an expression: whatever it mentions can be followed. A resource has to be in
the catalog, and a typed struct has to be there and come to an end, with all that it mentions. -/
namespace FieldPlan

def unopened (name : String) : List Mention := [.missingStruct name]

/-- What a type itself mentions, its structs not being opened. -/
def TypeRef.direct (t : TypeRef) : List Mention := t.mentionsWith unopened

theorem TypeRef.direct_inner (t : TypeRef) : t.inner.direct = t.direct := by
  cases t <;> rfl

namespace Catalog

/-- The mention leads to something, and does so to its end. -/
inductive Follows (c : Catalog) : Mention → Prop
  | resource {name : String} (present : c.hasResource name = true) : Follows c (.resource name)
  | instance (name : String) : Follows c (.instance name)
  | struct {name : String} {s : StructDef} (found : c.struct? name = some s)
      (inside : ∀ m ∈ TypeRef.slotMentions unopened s.slots, Follows c m) :
      Follows c (.missingStruct name)

def Resolves (c : Catalog) (t : TypeRef) : Prop := ∀ m ∈ t.direct, c.Follows m

end Catalog

namespace Schema

/-! ### Results -/

theorem map_isOk {α β : Type} (f : α → β) (m : Result α) :
    (∃ b, m.map f = .ok b) ↔ ∃ a, m = .ok a := by
  cases m <;> simp [Except.map]

theorem pair_isOk {α β γ : Type} (f : α → β → γ) (m : Result α) (m' : Result β) :
    (∃ b, (do let a ← m; let b ← m'; return f a b : Result γ) = .ok b) ↔
      (∃ a, m = .ok a) ∧ ∃ b, m' = .ok b := by
  cases m with
  | error fault => simp [bind, Except.bind]
  | ok a => cases m' <;> simp [bind, Except.bind, pure, Except.pure]

variable {c : Catalog} {formatter : Formatter} {form : Form} {t : TypeRef}

theorem resourceExpr_isOk {name : String} :
    (∃ e, resourceExpr c form name = .ok e) ↔ c.hasResource name = true := by
  unfold resourceExpr Catalog.hasResource
  cases c.resource? name with
  | none => simp [fault]
  | some r =>
    refine iff_of_true ?_ rfl
    dsimp only
    split <;> exact ⟨_, rfl⟩

/-! ### One level of structs -/

section
variable {ofStruct : String → Result TypeExpr}

/-- What has to be for a mention to have an expression. -/
def Meets (c : Catalog) (ofStruct : String → Result TypeExpr) : Mention → Prop
  | .resource name => c.hasResource name = true
  | .instance _ => True
  | .missingStruct name => ∃ e, ofStruct name = .ok e
  | .endless => False

theorem meets_only {m : Mention} : (∀ m' ∈ [m], Meets c ofStruct m') ↔ Meets c ofStruct m :=
  List.forall_mem_singleton

theorem slotted_isOk {slots : List (Slot TypeRef)} {blank : TypeExpr}
    (slotted : (∃ members, slotExprs c formatter form ofStruct [] slots = .ok members) ↔
      ∀ m ∈ TypeRef.slotMentions unopened slots, Meets c ofStruct m) :
    (∃ e, (if slots.isEmpty then .ok blank
      else (slotExprs c formatter form ofStruct [] slots).map .object) = .ok e) ↔
      ∀ m ∈ TypeRef.slotMentions unopened slots, Meets c ofStruct m := by
  split
  · next none =>
    rw [List.isEmpty_iff.1 none]
    exact iff_of_true ⟨blank, rfl⟩ fun _ absent => absurd absent List.not_mem_nil
  · rw [map_isOk, slotted]

mutual
/-- A type has an expression just if all that it mentions does. -/
theorem typeExprWith_isOk : ∀ t : TypeRef,
    (∃ e, typeExprWith c formatter form ofStruct t = .ok e) ↔ ∀ m ∈ t.direct, Meets c ofStruct m
  | .any => iff_of_true ⟨_, rfl⟩ fun _ absent => absurd absent List.not_mem_nil
  | .primitive _ _ => iff_of_true ⟨_, rfl⟩ fun _ absent => absurd absent List.not_mem_nil
  | .array item => by
    rw [typeExprWith, map_isOk]
    exact typeExprWith_isOk item
  | .map slots => slotted_isOk (slotExprs_isOk [] slots)
  | .keyword slots => slotted_isOk (slotExprs_isOk [] slots)
  | .tuple slots => slotted_isOk (slotExprs_isOk [] slots)
  | .struct none => iff_of_true ⟨_, rfl⟩ fun _ absent => absurd absent List.not_mem_nil
  | .struct (some name) => by
    have mentions : ∀ m ∈ (TypeRef.struct (some name)).direct, Meets c ofStruct m := by
      intro m only
      rw [List.mem_singleton.1 only]
      trivial
    refine iff_of_true ?_ mentions
    rw [typeExprWith]
    split
    · next present => exact resourceExpr_isOk.2 present
    · exact ⟨_, rfl⟩
  | .typedStruct name => (meets_only (m := .missingStruct name)).symm
  | .union members => by
    rw [typeExprWith]
    split
    · next none =>
      rw [List.isEmpty_iff.1 none]
      exact iff_of_true ⟨_, rfl⟩ fun _ absent => absurd absent List.not_mem_nil
    · rw [map_isOk]
      exact memberExprs_isOk members
  | .resource name => by
    rw [typeExprWith, resourceExpr_isOk]
    exact (meets_only (m := .resource name)).symm

theorem slotExprs_isOk (names : List (String × String)) : ∀ slots : List (Slot TypeRef),
    (∃ members, slotExprs c formatter form ofStruct names slots = .ok members) ↔
      ∀ m ∈ TypeRef.slotMentions unopened slots, Meets c ofStruct m
  | [] => iff_of_true ⟨_, rfl⟩ fun _ absent => absurd absent List.not_mem_nil
  | ⟨name, t, allowNil⟩ :: rest => by
    have first := typeExprWith_isOk t
    have others := slotExprs_isOk names rest
    rw [slotExprs, pair_isOk, first, others, TypeRef.slotMentions, List.forall_mem_append]
    rfl

theorem memberExprs_isOk : ∀ members : List (Member TypeRef),
    (∃ options, memberExprs c formatter form ofStruct members = .ok options) ↔
      ∀ m ∈ TypeRef.memberMentions unopened members, Meets c ofStruct m
  | [] => iff_of_true ⟨_, rfl⟩ fun _ absent => absurd absent List.not_mem_nil
  | ⟨name, t⟩ :: rest => by
    have first := typeExprWith_isOk t
    have others := memberExprs_isOk rest
    rw [memberExprs, pair_isOk, first, others, TypeRef.memberMentions, List.forall_mem_append]
    rfl
end

end

/-! ### Structs inside each other -/

theorem structExprWithin_isOk {n : Nat} {name : String} :
    (∃ e, structExprWithin c formatter form (n + 1) name = .ok e) ↔
      ∃ s, c.struct? name = some s ∧ ∀ m ∈ TypeRef.slotMentions unopened s.slots,
        Meets c (structExprWithin c formatter form n) m := by
  rw [structExprWithin]
  cases found : c.struct? name with
  | none => simp [fault]
  | some s =>
    simp only [Option.some.injEq, exists_eq_left']
    rw [map_isOk, slotExprs_isOk]

theorem Meets.mono {ofStruct ofStruct' : String → Result TypeExpr} {m : Mention}
    (more : ∀ name, (∃ e, ofStruct name = .ok e) → ∃ e, ofStruct' name = .ok e)
    (h : Meets c ofStruct m) : Meets c ofStruct' m := by
  cases m with
  | resource name => exact h
  | «instance» name => trivial
  | missingStruct name => exact more name h
  | endless => exact h

theorem structExprWithin_deepens : Deepens (c.structs.map StructDef.name)
    fun n name => ∃ e, structExprWithin c formatter form n name = .ok e := by
  constructor
  · intro n
    induction n with
    | zero =>
      rintro name ⟨e, h⟩
      cases h
    | succ n ih =>
      intro name h
      obtain ⟨s, found, inside⟩ := structExprWithin_isOk.1 h
      exact structExprWithin_isOk.2 ⟨s, found, fun m member => (inside m member).mono ih⟩
  · intro n name late early
    obtain ⟨s, found, inside⟩ := structExprWithin_isOk.1 late
    refine ⟨Catalog.mem_struct_names found, ?_⟩
    by_contra nowhere
    refine early (structExprWithin_isOk.2 ⟨s, found, fun m member => (inside m member).mono ?_⟩)
    intro inner held
    by_contra absent
    exact nowhere ⟨inner, held, absent⟩

theorem structExpr_isOk {name : String} :
    (∃ e, structExpr c formatter form name = .ok e) ↔ c.Follows (.missingStruct name) := by
  constructor
  · unfold structExpr
    generalize c.structs.length + 1 = n
    intro h
    induction n generalizing name with
    | zero =>
      obtain ⟨e, h⟩ := h
      cases h
    | succ n ih =>
      obtain ⟨s, found, inside⟩ := structExprWithin_isOk.1 h
      refine .struct found fun m member => ?_
      have meets := inside m member
      cases m with
      | resource name => exact .resource meets
      | «instance» name => exact .instance name
      | missingStruct inner => exact ih meets
      | endless => exact meets.elim
  · intro h
    generalize same : Mention.missingStruct name = m at h
    induction h generalizing name with
    | resource present => cases same
    | «instance» other => cases same
    | @struct name s found inside ih =>
      cases same
      -- one level more opens the struct, and by then all structs are used up
      have deeper : ∃ e, structExprWithin c formatter form (c.structs.length + 2) name = .ok e := by
        refine structExprWithin_isOk.2 ⟨_, found, fun m member => ?_⟩
        cases m with
        | resource held =>
          cases inside _ member with
          | resource present => exact present
        | «instance» held => trivial
        | missingStruct held => exact ih _ member rfl
        | endless => cases inside _ member
      have last := structExprWithin_deepens.enough deeper
      rwa [List.length_map] at last

/-- A type has an expression just if it can be followed to its ends. -/
theorem typeExpr_isOk : (∃ e, typeExpr c formatter form t = .ok e) ↔ c.Resolves t := by
  rw [typeExpr, typeExprWith_isOk]
  refine forall₂_congr fun m _ => ?_
  cases m with
  | resource name =>
    refine ⟨fun present => .resource present, fun h => ?_⟩
    cases h with
    | resource present => exact present
  | «instance» name => exact iff_of_true trivial (.instance name)
  | missingStruct name => exact structExpr_isOk
  | endless => exact iff_of_false id nofun

/-! ### Mentions that are followed -/

theorem mentioned_isOk {mentions : List Mention} :
    (∃ names, mentioned c mentions = .ok names) ↔
      .endless ∉ mentions ∧ ∀ name, .missingStruct name ∉ mentions := by
  induction mentions with
  | nil => exact iff_of_true ⟨_, rfl⟩ ⟨List.not_mem_nil, fun _ => List.not_mem_nil⟩
  | cons first rest ih =>
    cases first with
    | resource other =>
      rw [mentioned, map_isOk, ih]
      simp
    | «instance» other =>
      rw [mentioned]
      split
      · rw [map_isOk, ih]
        simp
      · rw [ih]
        simp
    | missingStruct other =>
      rw [mentioned]
      exact iff_of_false (by simp [fault]) fun none => none.2 other List.mem_cons_self
    | endless =>
      rw [mentioned]
      exact iff_of_false (by simp [crash]) fun none => none.1 List.mem_cons_self

theorem typesResources_isOk {types : List TypeRef} :
    (∃ names, typesResources c types = .ok names) ↔
      ∀ t ∈ types, .endless ∉ c.mentions t ∧ ∀ name, .missingStruct name ∉ c.mentions t := by
  induction types with
  | nil => exact iff_of_true ⟨_, rfl⟩ fun _ absent => absurd absent List.not_mem_nil
  | cons t rest ih =>
    rw [typesResources, pair_isOk, typeResources, mentioned_isOk, ih, List.forall_mem_cons]

theorem mentioned_of_resolves (h : c.Resolves t) :
    ∃ names, typeResources c t = .ok names ∧ ∀ name ∈ names, c.hasResource name = true := by
  have written : ∃ e, typeExpr c .camelCase .output t = .ok e := typeExpr_isOk.2 h
  obtain ⟨e, written⟩ := written
  refine ⟨e.resources, typeExpr_resources written, fun name listed => ?_⟩
  rw [← TypeExpr.references_resources] at listed
  obtain ⟨ref, named, rfl⟩ := List.mem_map.1 listed
  obtain ⟨r, found, -⟩ := ((typeExpr_references written).1 named).2.resource
  rw [Catalog.hasResource, found]
  rfl

theorem present_of_resolves {name : String} (h : c.Resolves t)
    (mention : .resource name ∈ c.mentions t) : c.hasResource name = true := by
  obtain ⟨names, resources, all⟩ := mentioned_of_resolves h
  exact all name ((mem_mentioned resources).2 (Or.inl mention))

end Schema
end FieldPlan
