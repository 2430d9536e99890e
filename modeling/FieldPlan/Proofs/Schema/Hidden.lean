import FieldPlan.Catalog.Travel
import FieldPlan.Proofs.Schema.Named
import FieldPlan.Proofs.Schema.Plain
import FieldPlan.Proofs.Schema.Reached
import FieldPlan.Proofs.Site

/-! Hidden resources in the definitions. Most sections look at all resources that a type refers
to before they write it. The members of unions, the arguments of calculations and the input of
embedded resources are written without a look, and through them hidden resources are named. -/
namespace FieldPlan
namespace Schema

def Definition.resources (d : Definition) : List String :=
  match d.body with
  | .alias type => type.resources
  | .members members => TypeExpr.resourcesOfMembers members

namespace Context
variable (x : Context)

def RefersTo (t : TypeRef) (name : String) : Prop :=
  ∃ names, typeResources x.catalog t = .ok names ∧ name ∈ names

/-- The hidden ones among the resources are those that the types refer to. -/
def LeaksThrough (resources : List String) (types : List TypeRef) : Prop :=
  ∀ name, x.admits name = false → (name ∈ resources ↔ ∃ t ∈ types, x.RefersTo t name)

/-! ### The types that nothing looks into -/

/-- A member is left out only if it is itself an embedded resource that is hidden. -/
def memberTypes (m : Member TypeRef) : List TypeRef :=
  if (x.catalog.embeddedName m.type).all x.admits then [m.type] else []

def unionTypes (r : Resource) (a : Attribute) : List TypeRef :=
  if x.kindOf r a.name == .unionAttribute then
    match a.type.inner with
    | .union members => members.flatMap x.memberTypes
    | _ => []
  else []

/-- Calculations are left out for what they return, and not for what they take. -/
def argumentTypes (r : Resource) (a : Calculation) : List TypeRef :=
  if x.kindOf r a.name == .calculationComplex || x.kindOf r a.name == .calculationWithArgs then
    match x.referencesAdmitted a.type with
    | .ok true => a.arguments.map Argument.type
    | _ => []
  else []

def unchecked (r : Resource) : List TypeRef :=
  r.publicCalculations.flatMap (x.argumentTypes r) ++ r.publicAttributes.flatMap (x.unionTypes r) ++
    if r.embedded then r.publicAttributes.map Attribute.type else []

variable {x} {r : Resource} {resources resources' : List String} {types types' : List TypeRef}
variable {t : TypeRef} {o : Option (TypeMember TypeExpr)}

theorem mem_argumentTypes {a : Calculation} : t ∈ x.argumentTypes r a ↔
    (x.kindOf r a.name = .calculationComplex ∨ x.kindOf r a.name = .calculationWithArgs) ∧
      x.referencesAdmitted a.type = .ok true ∧ t ∈ a.arguments.map Argument.type := by
  unfold argumentTypes
  split
  · next either =>
    rw [Bool.or_eq_true, beq_iff_eq, beq_iff_eq] at either
    split
    · next may => simp [either, may]
    · next other =>
      refine iff_of_false List.not_mem_nil ?_
      rintro ⟨-, may, -⟩
      exact other may
  · next neither =>
    rw [Bool.or_eq_true, beq_iff_eq, beq_iff_eq] at neither
    simp [neither]

/-! ### Ways to leak -/

theorem leaks_nothing (all : ∀ name ∈ resources, x.admits name = true) :
    x.LeaksThrough resources [] := by
  intro name hidden
  constructor
  · intro member
    rw [all name member] at hidden
    contradiction
  · rintro ⟨t, absent, -⟩
    exact absurd absent List.not_mem_nil

theorem leaks_nil : x.LeaksThrough [] [] := by
  apply leaks_nothing
  intro name absent
  exact absurd absent List.not_mem_nil

theorem LeaksThrough.append (first : x.LeaksThrough resources types)
    (others : x.LeaksThrough resources' types') :
    x.LeaksThrough (resources ++ resources') (types ++ types') := by
  intro name hidden
  simp only [List.mem_append, first name hidden, others name hidden, or_and_right, exists_or]

theorem leaks_type {form : Form} {expr : TypeExpr}
    (h : typeExpr x.catalog x.formatter form t = .ok expr) : x.LeaksThrough expr.resources [t] := by
  have named := typeExpr_resources h
  intro name _
  constructor
  · intro member
    exact ⟨t, List.mem_singleton_self t, expr.resources, named, member⟩
  · rintro ⟨other, only, names, refers, member⟩
    rw [List.mem_singleton.1 only, named] at refers
    cases refers
    exact member

theorem leaks_checked {form : Form} {expr : TypeExpr} (checked : x.referencesAdmitted t = .ok true)
    (h : typeExpr x.catalog x.formatter form t = .ok expr) : x.LeaksThrough expr.resources [] := by
  apply leaks_nothing
  rw [referencesAdmitted, typeExpr_resources h] at checked
  exact List.all_eq_true.1 (Except.ok.inj checked)

theorem leaks_gather {α : Type} {part : α → Result (Option (TypeMember TypeExpr))}
    {leaked : α → List TypeRef} {items : List α} {members : List (TypeMember TypeExpr)}
    (step : ∀ a o, part a = .ok o →
      x.LeaksThrough (TypeExpr.resourcesOfMembers o.toList) (leaked a))
    (h : gather part items = .ok members) :
    x.LeaksThrough (TypeExpr.resourcesOfMembers members) (items.flatMap leaked) := by
  induction items generalizing members with
  | nil =>
    cases h
    exact leaks_nil
  | cons item rest ih =>
    obtain ⟨first, head, h⟩ := Outcome.bind_ok h
    obtain ⟨others, tail, h⟩ := Outcome.bind_ok h
    cases h
    rw [resourcesOfMembers_append, List.flatMap_cons]
    exact (step item first head).append (ih tail)

theorem leaks_gather_nothing {α : Type} {part : α → Result (Option (TypeMember TypeExpr))}
    {items : List α} {members : List (TypeMember TypeExpr)}
    (step : ∀ a o, part a = .ok o → x.LeaksThrough (TypeExpr.resourcesOfMembers o.toList) [])
    (h : gather part items = .ok members) :
    x.LeaksThrough (TypeExpr.resourcesOfMembers members) [] := by
  have leaks := leaks_gather step h
  rwa [List.flatMap_eq_nil_iff.2 fun _ _ => rfl] at leaks

theorem leaks_member {m : TypeMember TypeExpr} (h : x.LeaksThrough m.type.resources types) :
    x.LeaksThrough (TypeExpr.resourcesOfMembers (some m).toList) types := by
  rw [Option.toList_some, TypeExpr.resourcesOfMembers, TypeExpr.resourcesOfMembers,
    List.append_nil]
  exact h

theorem leaks_ifAdmitted {m : Result (TypeMember TypeExpr)} (h : x.ifAdmitted t m = .ok o)
    (made : x.referencesAdmitted t = .ok true → ∀ shown, m = .ok shown →
      x.LeaksThrough shown.type.resources types)
    (skipped : x.referencesAdmitted t = .ok false → types = []) :
    x.LeaksThrough (TypeExpr.resourcesOfMembers o.toList) types := by
  have refs := ifAdmitted_ok h
  cases o with
  | none =>
    rw [skipped refs]
    exact leaks_nil
  | some shown => exact leaks_member (made refs shown (ifAdmitted_made h))

/-! ### Section by section -/

theorem leaks_value {name : String} {allowNil : Bool}
    (h : x.ifAdmitted t (x.valueMember r name t allowNil) = .ok o) :
    x.LeaksThrough (TypeExpr.resourcesOfMembers o.toList) [] := by
  refine leaks_ifAdmitted h ?_ fun _ => rfl
  intro checked shown made
  obtain ⟨expr, same, made⟩ := Outcome.bind_ok made
  cases made
  rw [member, resources_orNullIf]
  exact leaks_checked checked same

theorem leaks_records {form : Form} {name : String} {records : TypeExpr}
    (shown : x.admits name = true) (h : resourceExpr x.catalog form name = .ok records) :
    x.LeaksThrough records.resources [] := by
  rw [resourceExpr_resources h]
  apply leaks_nothing
  intro other only
  rw [List.mem_singleton.1 only]
  exact shown

theorem plainAttribute_leaks (a : Attribute) (o : Option (TypeMember TypeExpr))
    (h : x.plainAttribute r a = .ok o) :
    x.LeaksThrough (TypeExpr.resourcesOfMembers o.toList) [] := by
  rcases ofKind_ok h with ⟨-, rfl⟩ | ⟨-, admitted⟩
  · exact leaks_nil
  · exact leaks_value admitted

theorem plainCalculation_leaks (a : Calculation) (o : Option (TypeMember TypeExpr))
    (h : x.plainCalculation r a = .ok o) :
    x.LeaksThrough (TypeExpr.resourcesOfMembers o.toList) [] := by
  rcases ofKind_ok h with ⟨-, rfl⟩ | ⟨-, admitted⟩
  · exact leaks_nil
  · exact leaks_value admitted

theorem plainAggregate_leaks (a : Aggregate) (o : Option (TypeMember TypeExpr))
    (h : x.plainAggregate r a = .ok o) :
    x.LeaksThrough (TypeExpr.resourcesOfMembers o.toList) [] := by
  rcases ofKind_ok h with ⟨-, rfl⟩ | ⟨-, worked⟩
  · exact leaks_nil
  · obtain ⟨t, typed, admitted⟩ := Outcome.bind_ok worked
    refine leaks_ifAdmitted admitted ?_ fun _ => rfl
    intro checked shown made
    obtain ⟨expr, same, made⟩ := Outcome.bind_ok made
    cases made
    rw [resources_orNullIf]
    exact leaks_checked checked same

theorem structuredAttribute_leaks (a : Attribute) (o : Option (TypeMember TypeExpr))
    (h : x.structuredAttribute r a = .ok o) :
    x.LeaksThrough (TypeExpr.resourcesOfMembers o.toList) [] := by
  rcases ofKind_ok h with ⟨-, rfl⟩ | ⟨-, admitted⟩
  · exact leaks_nil
  · exact leaks_value admitted

@[simp] theorem resources_linkType (many nullable : Bool) (records : TypeExpr) :
    (linkType many nullable records).resources = records.resources := by
  cases many <;> simp [linkType, TypeExpr.resources, TypeExpr.resourcesOfMembers]

@[simp] theorem resources_derivedType (value : TypeExpr) (arguments : List (TypeMember TypeExpr)) :
    (derivedType value arguments).resources =
      value.resources ++ TypeExpr.resourcesOfMembers arguments := by
  cases arguments <;> simp [derivedType, TypeExpr.resources, TypeExpr.resourcesOfMembers]

theorem linkMember_leaks (link : Relationship) (o : Option (TypeMember TypeExpr))
    (h : x.linkMember r link = .ok o) :
    x.LeaksThrough (TypeExpr.resourcesOfMembers o.toList) [] := by
  simp only [linkMember] at h
  split at h
  · cases h
  split at h
  · next shown =>
    obtain ⟨records, same, h⟩ := Outcome.bind_ok h
    cases h
    apply leaks_member
    rw [member, resources_linkType]
    exact leaks_records shown same
  · cases h
    exact leaks_nil

theorem embeddedMember_leaks (a : Attribute) (o : Option (TypeMember TypeExpr))
    (h : x.embeddedMember r a = .ok o) :
    x.LeaksThrough (TypeExpr.resourcesOfMembers o.toList) [] := by
  rcases ofKind_ok h with ⟨-, rfl⟩ | ⟨-, worked⟩
  · exact leaks_nil
  split at worked
  · cases worked
    exact leaks_nil
  · next embedded held =>
    obtain ⟨records, same, made⟩ := Outcome.bind_ok worked
    cases made
    apply leaks_member
    rw [member, resources_linkType]
    exact leaks_records (Option.filter_eq_some_iff.1 held).2 same

theorem derivedAggregate_leaks (a : Aggregate) (o : Option (TypeMember TypeExpr))
    (h : x.derivedAggregate r a = .ok o) :
    x.LeaksThrough (TypeExpr.resourcesOfMembers o.toList) [] := by
  rcases ofKind_ok h with ⟨-, rfl⟩ | ⟨-, worked⟩
  · exact leaks_nil
  · obtain ⟨t, typed, admitted⟩ := Outcome.bind_ok worked
    refine leaks_ifAdmitted admitted ?_ fun _ => rfl
    intro checked shown made
    obtain ⟨expr, same, made⟩ := Outcome.bind_ok made
    cases made
    rw [member, resources_derivedType, resources_orNullIf]
    exact (leaks_checked checked same).append leaks_nil

theorem arguments_leak {arguments : List Argument} {members : List (TypeMember TypeExpr)}
    (h : gather (fun arg => some <$> x.argumentMember arg) arguments = .ok members) :
    x.LeaksThrough (TypeExpr.resourcesOfMembers members) (arguments.map Argument.type) := by
  rw [List.map_eq_flatMap]
  refine leaks_gather ?_ h
  intro arg o worked
  obtain ⟨shown, made, rfl⟩ := Outcome.map_ok worked
  obtain ⟨expr, same, made⟩ := Outcome.bind_ok made
  cases made
  apply leaks_member
  rw [resources_orNullIf]
  exact leaks_type same

theorem derivedCalculation_leaks (a : Calculation) (o : Option (TypeMember TypeExpr))
    (h : x.derivedCalculation r a = .ok o) :
    x.LeaksThrough (TypeExpr.resourcesOfMembers o.toList) (x.argumentTypes r a) := by
  unfold argumentTypes
  rcases ofKind_ok h with ⟨other, rfl⟩ | ⟨derived, admitted⟩
  · rw [if_neg (by simpa using other)]
    exact leaks_nil
  · rw [if_pos (by simpa using derived)]
    refine leaks_ifAdmitted admitted ?_ ?_
    · intro checked shown made
      obtain ⟨expr, same, made⟩ := Outcome.bind_ok made
      obtain ⟨arguments, listed, made⟩ := Outcome.bind_ok made
      cases made
      rw [member, resources_derivedType, resources_orNullIf, checked]
      exact (leaks_checked checked same).append (arguments_leak listed)
    · intro refused
      rw [refused]

theorem unionMember_leaks (m : Member TypeRef) (o : Option (TypeMember TypeExpr))
    (h : x.unionMember m = .ok o) :
    x.LeaksThrough (TypeExpr.resourcesOfMembers o.toList) (x.memberTypes m) := by
  unfold unionMember at h
  unfold memberTypes
  split at h
  · next shown =>
    obtain ⟨expr, same, h⟩ := Outcome.bind_ok h
    cases h
    rw [if_pos shown]
    exact leaks_member (leaks_type same)
  · next hidden =>
    cases h
    rw [if_neg hidden]
    exact leaks_nil

theorem unionType_leaks {members : List (Member TypeRef)} {many : Bool} {expr : TypeExpr}
    (h : x.unionType members many = .ok expr) :
    x.LeaksThrough expr.resources (members.flatMap x.memberTypes) := by
  obtain ⟨parts, listed, h⟩ := Outcome.bind_ok h
  cases h
  have written := leaks_gather unionMember_leaks listed
  cases many <;>
    simpa [TypeExpr.resources, TypeExpr.resourcesOfMembers] using written

theorem unionAttribute_leaks (a : Attribute) (o : Option (TypeMember TypeExpr))
    (h : x.unionAttribute r a = .ok o) :
    x.LeaksThrough (TypeExpr.resourcesOfMembers o.toList) (x.unionTypes r a) := by
  unfold unionTypes
  rcases ofKind_ok h with ⟨other, rfl⟩ | ⟨same, worked⟩
  · rw [if_neg (by simpa using other)]
    exact leaks_nil
  · rw [if_pos (by simpa using same), TypeRef.inner]
    split at worked
    · next members many shape =>
      obtain ⟨expr, made, worked⟩ := Outcome.bind_ok worked
      cases worked
      rw [shape]
      apply leaks_member
      rw [member, resources_orNullIf]
      exact unionType_leaks made
    · cases worked

/-! ### Whole definitions -/

theorem plainMembers_leak {members : List (TypeMember TypeExpr)}
    (h : x.plainMembers r = .ok members) :
    x.LeaksThrough (TypeExpr.resourcesOfMembers members) [] := by
  obtain ⟨stored, first, h⟩ := Outcome.bind_ok h
  obtain ⟨derived, second, h⟩ := Outcome.bind_ok h
  obtain ⟨summed, third, h⟩ := Outcome.bind_ok h
  cases h
  rw [resourcesOfMembers_append, resourcesOfMembers_append]
  have attributes := leaks_gather_nothing plainAttribute_leaks first
  have calculations := leaks_gather_nothing plainCalculation_leaks second
  have aggregates := leaks_gather_nothing plainAggregate_leaks third
  exact (attributes.append calculations).append aggregates

theorem structuredMembers_leak {members : List (TypeMember TypeExpr)}
    (h : x.structuredMembers r = .ok members) :
    x.LeaksThrough (TypeExpr.resourcesOfMembers members)
      (r.publicCalculations.flatMap (x.argumentTypes r) ++
        r.publicAttributes.flatMap (x.unionTypes r)) := by
  obtain ⟨links, first, h⟩ := Outcome.bind_ok h
  obtain ⟨embedded, second, h⟩ := Outcome.bind_ok h
  obtain ⟨derived, third, h⟩ := Outcome.bind_ok h
  obtain ⟨summed, fourth, h⟩ := Outcome.bind_ok h
  obtain ⟨unions, fifth, h⟩ := Outcome.bind_ok h
  obtain ⟨structured, sixth, h⟩ := Outcome.bind_ok h
  cases h
  have none := (leaks_gather_nothing linkMember_leaks first).append
    (leaks_gather_nothing embeddedMember_leaks second)
  have called := none.append (leaks_gather derivedCalculation_leaks third)
  have summed := called.append (leaks_gather_nothing derivedAggregate_leaks fourth)
  have joined := summed.append (leaks_gather unionAttribute_leaks fifth)
  have all := joined.append (leaks_gather_nothing structuredAttribute_leaks sixth)
  simpa using all

theorem fieldNames_leak {shown : Resource} {d : Definition} (h : x.fieldNames shown = .ok d) :
    x.LeaksThrough d.resources [] := by
  obtain ⟨r, found, names, plain, body⟩ := fieldNames_plain h
  rw [Definition.resources, body]
  simp only [resources_oneOf]
  exact leaks_nil

theorem resourceSchema_leaks {shown : Resource} {d : Definition}
    (found : x.catalog.resource? shown.name = some shown) (h : x.resourceSchema shown = .ok d) :
    x.LeaksThrough d.resources
      (shown.publicCalculations.flatMap (x.argumentTypes shown) ++
        shown.publicAttributes.flatMap (x.unionTypes shown)) := by
  obtain ⟨r, held, h⟩ := Outcome.bind_ok h
  -- the fields are those of the catalog's resource of the name, which is this one
  obtain rfl := Option.some.inj (found.symm.trans (fieldResource_ok held))
  obtain ⟨plain, listed, h⟩ := Outcome.bind_ok h
  obtain ⟨structured, written, h⟩ := Outcome.bind_ok h
  cases h
  have leaks := (plainMembers_leak listed).append (structuredMembers_leak written)
  simpa [Definition.resources, TypeExpr.resourcesOfMembers, TypeExpr.resources] using leaks

theorem inputSchema_leaks {shown : Resource} {d : Definition}
    (found : x.catalog.resource? shown.name = some shown) (h : x.inputSchema shown = .ok d) :
    x.LeaksThrough d.resources (shown.publicAttributes.map Attribute.type) := by
  obtain ⟨r, held, h⟩ := Outcome.bind_ok h
  obtain rfl := Option.some.inj (found.symm.trans (fieldResource_ok held))
  obtain ⟨members, listed, h⟩ := Outcome.bind_ok h
  cases h
  rw [List.map_eq_flatMap]
  refine leaks_gather ?_ listed
  intro a o worked
  obtain ⟨shown, made, rfl⟩ := Outcome.map_ok worked
  obtain ⟨expr, same, made⟩ := Outcome.bind_ok made
  cases made
  apply leaks_member
  rw [resources_orNullIf]
  exact leaks_type same

theorem definitions_leak {shown : Resource} {ds : List Definition}
    (found : x.catalog.resource? shown.name = some shown) (h : x.definitions shown = .ok ds) :
    x.LeaksThrough (ds.flatMap Definition.resources) (x.unchecked shown) := by
  obtain ⟨names, first, h⟩ := Outcome.bind_ok h
  obtain ⟨schema, second, h⟩ := Outcome.bind_ok h
  have both := (fieldNames_leak first).append (resourceSchema_leaks found second)
  unfold unchecked
  split at h
  · next embedded =>
    obtain ⟨input, third, h⟩ := Outcome.bind_ok h
    cases h
    rw [if_pos embedded]
    simpa using both.append (inputSchema_leaks found third)
  · next plain =>
    cases h
    rw [if_neg plain]
    simpa using both

end Context

variable {x : Context} {roots : Option (List String)}

theorem allDefinitions_ok {chunks : List (Resource × List Definition)}
    (h : x.allDefinitions roots = .ok chunks) : ∀ chunk ∈ chunks,
      Reached x.catalog x.exposure chunk.1 ∧ x.definitions chunk.1 = .ok chunk.2 := by
  obtain ⟨found, reach, h⟩ := Outcome.bind_ok h
  obtain ⟨-, gathered⟩ := gather_ok h
  intro chunk member
  obtain ⟨r, present, worked⟩ := (gathered chunk).1 member
  obtain ⟨ds, defined, same⟩ := Outcome.map_ok worked
  cases same
  exact ⟨reachable_reached reach r present, defined⟩

/-- The text has definitions for exposed resources only, and each of these names just those
hidden resources that the types written without a look refer to. -/
theorem document_names_hidden_iff {text : String} (h : x.document roots = .ok text) :
    ∃ chunks, x.allDefinitions roots = .ok chunks ∧
      text = (if chunks.isEmpty then ""
        else "\n\n".intercalate (chunks.map fun chunk => renderChunk chunk.1 chunk.2) ++ "\n") ∧
      ∀ chunk ∈ chunks, x.admits chunk.1.name = true ∧
        ∀ name, x.admits name = false →
          ((∃ d ∈ chunk.2, name ∈ d.resources) ↔
            ∃ t ∈ x.unchecked chunk.1, x.RefersTo t name) := by
  obtain ⟨chunks, defined, h⟩ := Outcome.bind_ok h
  cases h
  refine ⟨chunks, defined, by rw [List.isEmpty_map], ?_⟩
  intro chunk member
  obtain ⟨⟨shown, found⟩, written⟩ := allDefinitions_ok defined chunk member
  refine ⟨shown, ?_⟩
  intro name hidden
  rw [← Context.definitions_leak found written name hidden, List.mem_flatMap]

/-! ### Letters

The sender of a letter may be a person, and persons are hidden. -/

namespace Post

def letter : Resource where
  name := "Letter"
  attributes := [{ name := "sender", type := .union [
    { name := "person", type := .resource "Person" },
    { name := "note", type := .primitive .string [] }] }]

def context : Context := ⟨⟨[letter, Travel.person], []⟩, some ["Letter"], .camelCase⟩

end Post

/-- The definitions of letters name those of persons, which are not there. -/
theorem letter_names_person :
    (∃ text, Post.context.document (some ["Letter"]) = .ok text) ∧
      Post.context.admits "Person" = false ∧
      ∃ chunks, Post.context.allDefinitions (some ["Letter"]) = .ok chunks ∧
        ∃ chunk ∈ chunks, ∃ d ∈ chunk.2, "Person" ∈ d.resources := by
  have written : ∃ text, Post.context.document (some ["Letter"]) = .ok text :=
    ⟨_, by with_unfolding_all rfl⟩
  have hidden : Post.context.admits "Person" = false := by
    with_unfolding_all rfl
  have unchecked : Post.context.unchecked Post.letter =
      [.resource "Person", .primitive .string []] := by
    with_unfolding_all rfl
  have refers : typeResources Post.context.catalog (.resource "Person") = .ok ["Person"] := by
    with_unfolding_all rfl
  have letters : (Post.context.allDefinitions (some ["Letter"])).map (List.map Prod.fst) =
      .ok [Post.letter] := by
    with_unfolding_all rfl
  obtain ⟨text, rendered⟩ := written
  obtain ⟨chunks, defined, -, named⟩ := document_names_hidden_iff rendered
  rw [defined] at letters
  obtain ⟨chunk, only, same⟩ := List.map_eq_singleton_iff.1 (Except.ok.inj letters)
  have member : chunk ∈ chunks := by
    rw [only]
    exact List.mem_singleton_self chunk
  refine ⟨⟨text, rendered⟩, hidden, chunks, defined, chunk, member, ?_⟩
  refine ((named chunk member).2 "Person" hidden).2 ⟨.resource "Person", ?_, _, refers, ?_⟩
  · rw [same, unchecked]
    exact List.mem_cons_self
  · exact List.mem_singleton_self _

end Schema
end FieldPlan
