import FieldPlan.Proofs.Schema.Exposed

/-! The definitions that type expressions name. An expression names those of the resources that
its type mentions, and for each of these the one that stands for it in values of the form. -/
namespace FieldPlan

/-- A definition that is named, and the resource that it is written for. -/
structure Reference where
  resource : String
  definition : String

namespace TypeExpr

mutual
def references : TypeExpr → List Reference
  | .named _ => []
  | .literal _ => []
  | .schema resource definition => [⟨resource, definition⟩]
  | .array item => references item
  | .union options => referencesOfAll options
  | .object members => referencesOfMembers members
  | .metadata members => referencesOfMembers members

def referencesOfAll : List TypeExpr → List Reference
  | [] => []
  | t :: rest => references t ++ referencesOfAll rest

def referencesOfMembers : List (TypeMember TypeExpr) → List Reference
  | [] => []
  | ⟨_, _, t⟩ :: rest => references t ++ referencesOfMembers rest
end

mutual
theorem references_resources : ∀ e : TypeExpr, e.references.map Reference.resource = e.resources
  | .named _ => rfl
  | .literal _ => rfl
  | .schema _ _ => rfl
  | .array item => references_resources item
  | .union options => referencesOfAll_resources options
  | .object members => referencesOfMembers_resources members
  | .metadata members => referencesOfMembers_resources members

theorem referencesOfAll_resources : ∀ options : List TypeExpr,
    (referencesOfAll options).map Reference.resource = resourcesOfAll options
  | [] => rfl
  | t :: rest => by
    rw [referencesOfAll, resourcesOfAll, List.map_append, references_resources t,
      referencesOfAll_resources rest]

theorem referencesOfMembers_resources : ∀ members : List (TypeMember TypeExpr),
    (referencesOfMembers members).map Reference.resource = resourcesOfMembers members
  | [] => rfl
  | ⟨_, _, t⟩ :: rest => by
    rw [referencesOfMembers, resourcesOfMembers, List.map_append, references_resources t,
      referencesOfMembers_resources rest]
end

theorem references_eq_nil {e : TypeExpr} : e.references = [] ↔ e.resources = [] := by
  rw [← references_resources, List.map_eq_nil_iff]

theorem mem_referencesOfMembers {ref : Reference} {members : List (TypeMember TypeExpr)} :
    ref ∈ referencesOfMembers members ↔ ∃ m ∈ members, ref ∈ m.type.references := by
  induction members with
  | nil => simp [referencesOfMembers]
  | cons m rest ih => simp [referencesOfMembers, ih]

@[simp] theorem references_orNullIf (nullable : Bool) (t : TypeExpr) :
    (t.orNullIf nullable).references = t.references := by
  cases nullable with
  | false => rfl
  | true =>
    rw [orNullIf, if_pos rfl, orNull, references]
    simp [referencesOfAll, references]

@[simp] theorem references_oneOf (values : List String) : (oneOf values).references = [] :=
  references_eq_nil.2 (Schema.resources_oneOf values)

end TypeExpr

namespace Schema
variable {c : Catalog} {formatter : Formatter} {form : Form} {ref : Reference} {t : TypeRef}

/-! ### Definitions named by a type -/

/-- The definition stands for its resource in values of the form. -/
def Stands (c : Catalog) (form : Form) (ref : Reference) : Prop :=
  resourceExpr c form ref.resource = .ok (.schema ref.resource ref.definition)

/-- A value of the type holds records that the definition stands for. -/
def Refers (c : Catalog) (form : Form) (t : TypeRef) (ref : Reference) : Prop :=
  (.resource ref.resource ∈ c.mentions t ∨ .instance ref.resource ∈ c.mentions t) ∧
    Stands c form ref

theorem Stands.resource (h : Stands c form ref) :
    ∃ r, c.resource? ref.resource = some r ∧
      (ref.definition = r.schemaName ++ "ResourceSchema" ∨
        r.embedded = true ∧ ref.definition = r.schemaName ++ "InputSchema") := by
  unfold Stands resourceExpr at h
  split at h
  · cases h
  · next r found =>
    refine ⟨r, found, ?_⟩
    split at h
    · next both =>
      rw [Bool.and_eq_true] at both
      injection h with h
      injection h with _ same
      exact Or.inr ⟨both.2, same.symm⟩
    · injection h with h
      injection h with _ same
      exact Or.inl same.symm

theorem resourceExpr_references {name : String} {expr : TypeExpr}
    (h : resourceExpr c form name = .ok expr) :
    ref ∈ expr.references ↔ ref.resource = name ∧ Stands c form ref := by
  have shape : ∃ definition, expr = .schema name definition := by
    unfold resourceExpr at h
    split at h
    · cases h
    · split at h <;> exact ⟨_, (Except.ok.inj h).symm⟩
  obtain ⟨definition, rfl⟩ := shape
  rw [TypeExpr.references, List.mem_singleton]
  constructor
  · rintro rfl
    exact ⟨rfl, h⟩
  · rintro ⟨rfl, stands⟩
    have same := h.symm.trans stands
    injection same with same
    injection same with _ same
    rw [same]

theorem stand_nothing : ∀ ref ∈ ([] : List Reference), Stands c form ref :=
  fun _ absent => absurd absent List.not_mem_nil

section
variable {ofStruct : String → Result TypeExpr}

def StructsStand (c : Catalog) (form : Form) (ofStruct : String → Result TypeExpr) : Prop :=
  ∀ name expr, ofStruct name = .ok expr → ∀ ref ∈ expr.references, Stands c form ref

theorem slotted_stand {slots : List (Slot TypeRef)} {blank expr : TypeExpr}
    (plain : blank.references = [])
    (slotted : ∀ members, slotExprs c formatter form ofStruct [] slots = .ok members →
      ∀ ref ∈ TypeExpr.referencesOfMembers members, Stands c form ref)
    (h : (if slots.isEmpty then .ok blank
      else (slotExprs c formatter form ofStruct [] slots).map .object) = .ok expr) :
    ∀ ref ∈ expr.references, Stands c form ref := by
  split at h
  · cases h
    rw [plain]
    exact stand_nothing
  · obtain ⟨members, same, rfl⟩ := Outcome.map_ok h
    exact slotted members same

mutual
theorem typeExprWith_stand (opened : StructsStand c form ofStruct) :
    ∀ (t : TypeRef) {expr : TypeExpr}, typeExprWith c formatter form ofStruct t = .ok expr →
      ∀ ref ∈ expr.references, Stands c form ref
  | .any, expr, h => by
    cases h
    exact stand_nothing
  | .primitive kind oneOf, expr, h => by
    cases h
    intro ref member
    split at member
    · exact stand_nothing ref member
    · rw [TypeExpr.references_oneOf] at member
      exact stand_nothing ref member
  | .array item, expr, h => by
    rw [typeExprWith] at h
    obtain ⟨inner, same, rfl⟩ := Outcome.map_ok h
    have named := typeExprWith_stand opened item same
    exact named
  | .map slots, expr, h => slotted_stand rfl (fun _ => slotExprs_stand opened [] slots) h
  | .keyword slots, expr, h => slotted_stand rfl (fun _ => slotExprs_stand opened [] slots) h
  | .tuple slots, expr, h => slotted_stand rfl (fun _ => slotExprs_stand opened [] slots) h
  | .struct none, expr, h => by
    cases h
    exact stand_nothing
  | .struct (some name), expr, h => by
    rw [typeExprWith] at h
    split at h
    · exact fun ref member => ((resourceExpr_references h).1 member).2
    · cases h
      exact stand_nothing
  | .typedStruct name, expr, h => opened name expr h
  | .union members, expr, h => by
    rw [typeExprWith] at h
    split at h
    · cases h
      exact stand_nothing
    · obtain ⟨options, same, rfl⟩ := Outcome.map_ok h
      exact memberExprs_stand opened members same
  | .resource name, expr, h => fun ref member => ((resourceExpr_references h).1 member).2

theorem slotExprs_stand (opened : StructsStand c form ofStruct) (names : List (String × String)) :
    ∀ (slots : List (Slot TypeRef)) {members : List (TypeMember TypeExpr)},
      slotExprs c formatter form ofStruct names slots = .ok members →
      ∀ ref ∈ TypeExpr.referencesOfMembers members, Stands c form ref
  | [], members, h => by
    cases h
    exact stand_nothing
  | ⟨name, t, allowNil⟩ :: rest, members, h => by
    obtain ⟨expr, first, h⟩ := Outcome.bind_ok h
    obtain ⟨others, later, h⟩ := Outcome.bind_ok h
    cases h
    intro ref member
    rw [TypeExpr.referencesOfMembers, TypeExpr.references_orNullIf, List.mem_append] at member
    exact member.elim (typeExprWith_stand opened t first ref)
      (slotExprs_stand opened names rest later ref)

theorem memberExprs_stand (opened : StructsStand c form ofStruct) :
    ∀ (members : List (Member TypeRef)) {options : List TypeExpr},
      memberExprs c formatter form ofStruct members = .ok options →
      ∀ ref ∈ TypeExpr.referencesOfAll options, Stands c form ref
  | [], options, h => by
    cases h
    exact stand_nothing
  | ⟨name, t⟩ :: rest, options, h => by
    obtain ⟨expr, first, h⟩ := Outcome.bind_ok h
    obtain ⟨others, later, h⟩ := Outcome.bind_ok h
    cases h
    intro ref member
    rw [TypeExpr.referencesOfAll, TypeExpr.references, TypeExpr.referencesOfMembers,
      TypeExpr.referencesOfMembers, List.append_nil, List.mem_append] at member
    exact member.elim (typeExprWith_stand opened t first ref)
      (memberExprs_stand opened rest later ref)
end

end

theorem structExprWithin_stand (fuel : Nat) :
    StructsStand c form (structExprWithin c formatter form fuel) := by
  induction fuel with
  | zero =>
    intro name expr h
    cases h
  | succ fuel ih =>
    intro name expr h
    rw [structExprWithin] at h
    split at h
    · cases h
    · next s found =>
      obtain ⟨members, same, rfl⟩ := Outcome.map_ok h
      exact slotExprs_stand ih s.fieldNames s.slots same

/-- The expression of a type names just the definitions that the type refers to. -/
theorem typeExpr_references {expr : TypeExpr} (h : typeExpr c formatter form t = .ok expr) :
    ref ∈ expr.references ↔ Refers c form t ref := by
  have named := typeExpr_resources h
  have stand := typeExprWith_stand (structExprWithin_stand _) t h
  constructor
  · intro member
    have listed : ref.resource ∈ expr.resources := by
      rw [← TypeExpr.references_resources]
      exact List.mem_map_of_mem member
    exact ⟨((mem_mentioned named).1 listed).imp_right And.left, stand ref member⟩
  · rintro ⟨mention, stands⟩
    obtain ⟨r, found, -⟩ := stands.resource
    have present : c.hasResource ref.resource = true := by simp [Catalog.hasResource, found]
    have listed := (mem_mentioned named).2 (mention.imp_right fun m => ⟨m, present⟩)
    rw [← TypeExpr.references_resources] at listed
    obtain ⟨other, member, same⟩ := List.mem_map.1 listed
    -- a resource has one definition in values of the form
    have alike := stand other member
    rw [Stands, same, stands] at alike
    injection alike with alike
    injection alike with _ alike
    have one : other = ref := by
      cases other
      cases ref
      simp_all
    rw [← one]
    exact member

end Schema
end FieldPlan
