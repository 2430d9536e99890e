import FieldPlan.Schema.Reach

/-! The definitions of a resource: the names that can be asked for bare, the schema
with one member a field, and for an embedded resource the shape of its input. A
field that refers to a resource outside the exposure is left out. -/
namespace FieldPlan.Schema

inductive Body where
  | alias (type : TypeExpr)
  | members (members : List (TypeMember TypeExpr))

structure Definition where
  name : String
  body : Body

def memberLine (m : TypeMember TypeExpr) : String :=
  "  " ++ TypeExpr.memberText m.name m.isOptional m.type.render ++ ";"

def Definition.render (d : Definition) : String :=
  "export type " ++ d.name ++ " = " ++ match d.body with
    | .alias type => type.render ++ ";"
    | .members members =>
      "\x7b\n" ++ "\n".intercalate (members.map memberLine) ++ "\n\x7d;"

structure Context where
  catalog : Catalog
  exposure : Exposure
  formatter : Formatter

/-- The results of those items that have one, up to the first fault. -/
def gather {α β : Type} (part : α → Result (Option β)) : List α → Result (List β)
  | [] => .ok []
  | item :: rest => do
    let first ← part item
    let others ← gather part rest
    return first.toList ++ others

namespace Context
variable (x : Context)

def admits (name : String) : Bool := Schema.admits x.catalog x.exposure name

def referencesAdmitted (t : TypeRef) : Result Bool := do
  return (← typeResources x.catalog t).all x.admits

def expr (t : TypeRef) : Result TypeExpr := typeExpr x.catalog x.formatter .output t

def inputExpr (t : TypeRef) : Result TypeExpr := typeExpr x.catalog x.formatter .input t

def external (r : Resource) (name : String) : String :=
  x.formatter.format (r.externalField name)

def kindOf (r : Resource) (name : String) : Classification := classify x.catalog r name

def member (r : Resource) (name : String) (type : TypeExpr) : TypeMember TypeExpr :=
  ⟨x.external r name, false, type⟩

def aggregateType (r : Resource) (a : Aggregate) : Result TypeRef :=
  match x.catalog.aggregateType r a with
  | .found t => .ok t
  | .missing => fault (.unresolvedAggregate a.name r.name)
  | .unfinished => crash .endless

def ofKind (r : Resource) (name : String) (kinds : List Classification)
    (part : Result (Option (TypeMember TypeExpr))) : Result (Option (TypeMember TypeExpr)) :=
  match x.kindOf r name with
  | .crashed way => crash way
  | kind => if kinds.contains kind then part else return none

def ifAdmitted (t : TypeRef) (m : Result (TypeMember TypeExpr)) :
    Result (Option (TypeMember TypeExpr)) := do
  if ← x.referencesAdmitted t then return some (← m) else return none

def valueMember (r : Resource) (name : String) (t : TypeRef) (allowNil : Bool) :
    Result (TypeMember TypeExpr) := do
  return x.member r name ((← x.expr t).orNullIf allowNil)

def plainAttribute (r : Resource) (a : Attribute) : Result (Option (TypeMember TypeExpr)) :=
  x.ofKind r a.name [.attribute]
    (x.ifAdmitted a.type (x.valueMember r a.name a.type a.allowNil))

def plainCalculation (r : Resource) (a : Calculation) : Result (Option (TypeMember TypeExpr)) :=
  x.ofKind r a.name [.calculation]
    (x.ifAdmitted a.type (x.valueMember r a.name a.type a.allowNil))

def plainAggregate (r : Resource) (a : Aggregate) : Result (Option (TypeMember TypeExpr)) :=
  x.ofKind r a.name [.aggregate] do
    let t ← x.aggregateType r a
    x.ifAdmitted t do
      let type := (← x.expr t).orNullIf a.includeNil
      return ⟨x.external r a.name, a.includeNil, type⟩

def plainMembers (r : Resource) : Result (List (TypeMember TypeExpr)) := do
  return (← gather (x.plainAttribute r) r.publicAttributes) ++
    (← gather (x.plainCalculation r) r.publicCalculations) ++
    (← gather (x.plainAggregate r) r.publicAggregates)

def linkType (many nullable : Bool) (records : TypeExpr) : TypeExpr :=
  .metadata (⟨"__type", false, .literal "Relationship"⟩ ::
    if many then
      [⟨"__array", false, .named "true"⟩, ⟨"__resource", false, records⟩]
    else [⟨"__resource", false, records.orNullIf nullable⟩])

def linkMember (r : Resource) (link : Relationship) : Result (Option (TypeMember TypeExpr)) := do
  if !x.catalog.hasResource link.destination then
    fault (.danglingRelationship link.name r.name link.destination)
  if x.admits link.destination then
    let records ← resourceExpr x.catalog .output link.destination
    return some (x.member r link.name (linkType link.isMany link.allowNil records))
  else return none

def embeddedMember (r : Resource) (a : Attribute) : Result (Option (TypeMember TypeExpr)) :=
  x.ofKind r a.name [.embeddedResource, .embeddedResourceArray]
    (match (x.catalog.embeddedName a.type).filter x.admits with
    | none => return none
    | some embedded => do
      let records ← resourceExpr x.catalog .output embedded
      let many := x.kindOf r a.name == .embeddedResourceArray
      return some (x.member r a.name (linkType many a.allowNil records)))

def argumentMember (a : Argument) : Result (TypeMember TypeExpr) := do
  let type ← x.inputExpr a.type
  return ⟨x.formatter.format a.name, a.hasDefault || !a.default.isNull,
    type.orNullIf a.allowNil⟩

def derivedType (value : TypeExpr) (arguments : List (TypeMember TypeExpr)) : TypeExpr :=
  .metadata ([⟨"__type", false, .literal "ComplexCalculation"⟩, ⟨"__returnType", false, value⟩] ++
    if arguments.isEmpty then [] else [⟨"__args", false, .object arguments⟩])

def derivedCalculation (r : Resource) (a : Calculation) :
    Result (Option (TypeMember TypeExpr)) :=
  x.ofKind r a.name [.calculationComplex, .calculationWithArgs]
    (x.ifAdmitted a.type do
      let value := (← x.expr a.type).orNullIf a.allowNil
      let arguments ← gather (fun arg => some <$> x.argumentMember arg) a.arguments
      return x.member r a.name (derivedType value arguments))

def derivedAggregate (r : Resource) (a : Aggregate) : Result (Option (TypeMember TypeExpr)) :=
  x.ofKind r a.name [.complexAggregate] do
    let t ← x.aggregateType r a
    x.ifAdmitted t do
      let value := (← x.expr t).orNullIf a.includeNil
      return x.member r a.name (derivedType value [])

/-- A member of a union; an embedded resource that is not exposed is left out. -/
def unionMember (m : Member TypeRef) : Result (Option (TypeMember TypeExpr)) := do
  if (x.catalog.embeddedName m.type).all x.admits then
    return some ⟨x.formatter.format m.name, true, ← x.expr m.type⟩
  else return none

def unionType (members : List (Member TypeRef)) (many : Bool) : Result TypeExpr := do
  let plain := members.filter fun m => !x.catalog.requiresSelection m.type
  let names := plain.map fun m => x.formatter.format m.name
  let parts ← gather x.unionMember members
  return .metadata ((if many then [⟨"__array", false, .named "true"⟩] else []) ++
    [⟨"__type", false, .literal "Union"⟩, ⟨"__primitiveFields", false, .oneOf names⟩] ++ parts)

/-- An attribute whose name is read as that of a union. Its own type need not be one, and
then it has no members to ask for. -/
def unionAttribute (r : Resource) (a : Attribute) : Result (Option (TypeMember TypeExpr)) :=
  x.ofKind r a.name [.unionAttribute]
    (match a.type.unwrapArray with
    | (.union members, many) => do
      return some (x.member r a.name ((← x.unionType members many).orNullIf a.allowNil))
    | _ => crash .absent)

def structuredAttribute (r : Resource) (a : Attribute) :
    Result (Option (TypeMember TypeExpr)) :=
  x.ofKind r a.name [.typedStruct, .tuple]
    (x.ifAdmitted a.type (x.valueMember r a.name a.type a.allowNil))

def structuredMembers (r : Resource) : Result (List (TypeMember TypeExpr)) := do
  return (← gather (x.linkMember r) r.publicRelationships) ++
    (← gather (x.embeddedMember r) r.publicAttributes) ++
    (← gather (x.derivedCalculation r) r.publicCalculations) ++
    (← gather (x.derivedAggregate r) r.publicAggregates) ++
    (← gather (x.unionAttribute r) r.publicAttributes) ++
    (← gather (x.structuredAttribute r) r.publicAttributes)

def inputMember (r : Resource) (a : Attribute) : Result (TypeMember TypeExpr) := do
  let type ← x.inputExpr a.type
  return ⟨x.external r a.name, a.allowNil || !a.default.isNull, type.orNullIf a.allowNil⟩

def fieldResource (shown : Resource) : Result Resource :=
  match x.catalog.resource shown.name with
  | .ok r => .ok r
  | .error f => fault (.catalog f)

def fieldNames (shown : Resource) : Result Definition := do
  let plain ← x.plainMembers (← x.fieldResource shown)
  return ⟨shown.schemaName ++ "FieldName", .alias (.oneOf (plain.map TypeMember.name))⟩

/-- The schema, whose fields are those of the catalog's resource of that name. -/
def resourceSchema (shown : Resource) : Result Definition := do
  let r ← x.fieldResource shown
  let plain ← x.plainMembers r
  let structured ← x.structuredMembers r
  return ⟨shown.schemaName ++ "ResourceSchema", .members
    ([⟨"__type", false, .literal "Resource"⟩,
      ⟨"__primitiveFields", false, .oneOf (plain.map TypeMember.name)⟩] ++ plain ++ structured)⟩

def inputSchema (shown : Resource) : Result Definition := do
  let r ← x.fieldResource shown
  let members ← gather (fun a => some <$> x.inputMember r a) r.publicAttributes
  return ⟨shown.schemaName ++ "InputSchema", .members members⟩

def definitions (shown : Resource) : Result (List Definition) := do
  let names ← x.fieldNames shown
  let schema ← x.resourceSchema shown
  if shown.embedded then return [names, schema, ← x.inputSchema shown]
  else return [names, schema]

end Context

/-- The text of the definitions of a resource under a heading. The first two stand
together, any other apart. -/
def renderChunk (shown : Resource) : List Definition → String
  | names :: schema :: rest =>
    "\n\n".intercalate (("// " ++ shown.schemaName ++ " Schema\n" ++ names.render ++ "\n" ++
      schema.render) :: rest.map Definition.render)
  | rest => "\n\n".intercalate (rest.map Definition.render)

/-- All definitions for the resources reachable from the roots; without roots, from
all resources that are not embedded. -/
def Context.allDefinitions (x : Context) (roots : Option (List String)) :
    Result (List (Resource × List Definition)) := do
  let names := roots.getD ((x.catalog.resources.filter fun r => !r.embedded).map Resource.name)
  let found ← reachable x.catalog x.exposure names
  gather (fun r => (x.definitions r).map fun ds => some (r, ds)) found

def Context.document (x : Context) (roots : Option (List String)) : Result String := do
  let chunks := (← x.allDefinitions roots).map fun chunk => renderChunk chunk.1 chunk.2
  return if chunks.isEmpty then "" else "\n\n".intercalate chunks ++ "\n"

end FieldPlan.Schema
