import FieldPlan.Descent.Locality
import FieldPlan.Schema.Reach

/-! What type expressions name: just the resources that the type refers to, in the order of
its parts. Nothing here looks at an exposure. -/
namespace FieldPlan
namespace Schema
variable {c : Catalog} {formatter : Formatter} {form : Form}

/-! ### Resources of composed expressions -/

@[simp] theorem resources_orNullIf (nullable : Bool) (t : TypeExpr) :
    (t.orNullIf nullable).resources = t.resources := by
  cases nullable with
  | false => rfl
  | true =>
    rw [TypeExpr.orNullIf, if_pos rfl, TypeExpr.orNull, TypeExpr.resources]
    simp [TypeExpr.resourcesOfAll, TypeExpr.resources]

theorem resourcesOfAll_literals (values : List String) :
    TypeExpr.resourcesOfAll (values.map .literal) = [] := by
  induction values with
  | nil => rfl
  | cons value rest ih => exact ih

@[simp] theorem resources_oneOf (values : List String) : (TypeExpr.oneOf values).resources = [] := by
  unfold TypeExpr.oneOf
  split
  · rfl
  · exact resourcesOfAll_literals values

@[simp] theorem resourcesOfMembers_append (first others : List (TypeMember TypeExpr)) :
    TypeExpr.resourcesOfMembers (first ++ others) =
      TypeExpr.resourcesOfMembers first ++ TypeExpr.resourcesOfMembers others := by
  induction first with
  | nil => rfl
  | cons m rest ih =>
    rw [List.cons_append, TypeExpr.resourcesOfMembers, TypeExpr.resourcesOfMembers, ih,
      List.append_assoc]

/-! ### Resources of mentions -/

theorem mentioned_append {first others : List Mention} {names names' : List String}
    (h : mentioned c first = .ok names) (h' : mentioned c others = .ok names') :
    mentioned c (first ++ others) = .ok (names ++ names') := by
  induction first generalizing names with
  | nil =>
    cases h
    exact h'
  | cons mention rest ih =>
    cases mention with
    | resource name =>
      obtain ⟨later, same, rfl⟩ := Outcome.map_ok h
      rw [List.cons_append, mentioned, ih same]
      rfl
    | «instance» name =>
      rw [mentioned] at h
      rw [List.cons_append, mentioned]
      split at h
      · next present =>
        obtain ⟨later, same, rfl⟩ := Outcome.map_ok h
        rw [if_pos present, ih same]
        rfl
      · next absent =>
        rw [if_neg absent]
        exact ih h
    | missingStruct name => cases h
    | endless => cases h

theorem resourceExpr_resources {name : String} {expr : TypeExpr}
    (h : resourceExpr c form name = .ok expr) : expr.resources = [name] := by
  unfold resourceExpr at h
  split at h
  · cases h
  · split at h <;> cases h <;> rfl

section
variable {ofStruct : String → Result TypeExpr} {mentions : String → List Mention}

theorem slotted_resources {slots : List (Slot TypeRef)} {blank expr : TypeExpr}
    (plain : blank.resources = [])
    (slotted : ∀ members, slotExprs c formatter form ofStruct [] slots = .ok members →
      mentioned c (TypeRef.slotMentions mentions slots) =
        .ok (TypeExpr.resourcesOfMembers members))
    (h : (if slots.isEmpty then .ok blank
      else (slotExprs c formatter form ofStruct [] slots).map .object) = .ok expr) :
    mentioned c (TypeRef.slotMentions mentions slots) = .ok expr.resources := by
  split at h
  · next none =>
    cases h
    rw [List.isEmpty_iff.1 none, plain]
    rfl
  · obtain ⟨members, same, rfl⟩ := Outcome.map_ok h
    exact slotted members same

def StructsNamed (c : Catalog) (ofStruct : String → Result TypeExpr)
    (mentions : String → List Mention) : Prop :=
  ∀ name expr, ofStruct name = .ok expr → mentioned c (mentions name) = .ok expr.resources

mutual
theorem typeExprWith_resources (opened : StructsNamed c ofStruct mentions) :
    ∀ (t : TypeRef) {expr : TypeExpr}, typeExprWith c formatter form ofStruct t = .ok expr →
      mentioned c (t.mentionsWith mentions) = .ok expr.resources
  | .any, expr, h => by
    cases h
    rfl
  | .primitive kind oneOf, expr, h => by
    cases h
    rw [TypeRef.mentionsWith, mentioned]
    split
    · rfl
    · rw [resources_oneOf]
  | .array item, expr, h => by
    rw [typeExprWith] at h
    obtain ⟨inner, same, rfl⟩ := Outcome.map_ok h
    have named := typeExprWith_resources opened item same
    exact named
  | .map slots, expr, h => slotted_resources rfl (fun _ => slotExprs_resources opened [] slots) h
  | .keyword slots, expr, h => slotted_resources rfl (fun _ => slotExprs_resources opened [] slots) h
  | .tuple slots, expr, h => slotted_resources rfl (fun _ => slotExprs_resources opened [] slots) h
  | .struct none, expr, h => by
    cases h
    rfl
  | .struct (some name), expr, h => by
    rw [typeExprWith] at h
    rw [TypeRef.mentionsWith, mentioned]
    split at h
    · next present =>
      rw [if_pos present, resourceExpr_resources h]
      rfl
    · next absent =>
      cases h
      rw [if_neg absent]
      rfl
  | .typedStruct name, expr, h => opened name expr h
  | .union members, expr, h => by
    rw [typeExprWith] at h
    split at h
    · next none =>
      cases h
      rw [List.isEmpty_iff.1 none]
      rfl
    · obtain ⟨options, same, rfl⟩ := Outcome.map_ok h
      exact memberExprs_resources opened members same
  | .resource name, expr, h => by
    rw [TypeRef.mentionsWith, resourceExpr_resources h]
    rfl

theorem slotExprs_resources (opened : StructsNamed c ofStruct mentions)
    (names : List (String × String)) :
    ∀ (slots : List (Slot TypeRef)) {members : List (TypeMember TypeExpr)},
      slotExprs c formatter form ofStruct names slots = .ok members →
      mentioned c (TypeRef.slotMentions mentions slots) = .ok (TypeExpr.resourcesOfMembers members)
  | [], members, h => by
    cases h
    rfl
  | ⟨name, t, allowNil⟩ :: rest, members, h => by
    obtain ⟨expr, first, h⟩ := Outcome.bind_ok h
    obtain ⟨others, later, h⟩ := Outcome.bind_ok h
    cases h
    rw [TypeRef.slotMentions, TypeExpr.resourcesOfMembers, resources_orNullIf]
    exact mentioned_append (typeExprWith_resources opened t first)
      (slotExprs_resources opened names rest later)

theorem memberExprs_resources (opened : StructsNamed c ofStruct mentions) :
    ∀ (members : List (Member TypeRef)) {options : List TypeExpr},
      memberExprs c formatter form ofStruct members = .ok options →
      mentioned c (TypeRef.memberMentions mentions members) = .ok (TypeExpr.resourcesOfAll options)
  | [], options, h => by
    cases h
    rfl
  | ⟨name, t⟩ :: rest, options, h => by
    obtain ⟨expr, first, h⟩ := Outcome.bind_ok h
    obtain ⟨others, later, h⟩ := Outcome.bind_ok h
    cases h
    rw [TypeRef.memberMentions, TypeExpr.resourcesOfAll, TypeExpr.resources,
      TypeExpr.resourcesOfMembers, TypeExpr.resourcesOfMembers, List.append_nil]
    exact mentioned_append (typeExprWith_resources opened t first)
      (memberExprs_resources opened rest later)
end

end

theorem structExprWithin_named (fuel : Nat) :
    StructsNamed c (structExprWithin c formatter form fuel) (c.structMentions fuel) := by
  induction fuel with
  | zero =>
    intro name expr h
    cases h
  | succ fuel ih =>
    intro name expr h
    rw [structExprWithin] at h
    rw [Catalog.structMentions]
    cases found : c.struct? name with
    | none =>
      rw [found] at h
      cases h
    | some s =>
      rw [found] at h
      obtain ⟨members, same, rfl⟩ := Outcome.map_ok h
      exact slotExprs_resources ih s.fieldNames s.slots same

theorem typeExpr_resources {t : TypeRef} {expr : TypeExpr}
    (h : typeExpr c formatter form t = .ok expr) : typeResources c t = .ok expr.resources := by
  unfold typeResources Catalog.mentions
  exact typeExprWith_resources (structExprWithin_named _) t h

end Schema
end FieldPlan
