import FieldPlan.Catalog

/-! Types and resources as full documents: every declared field is there, with its
default where nothing else was said. -/
namespace FieldPlan

private def mappingOf (entries : List (String × Value)) : Value :=
  .mapping (entries.map fun entry => (.str entry.1, entry.2))

private def textOrNull : Option String → Value
  | some s => .str s
  | none => .null

namespace TypeRef

mutual
def document : TypeRef → Value
  | .primitive kind oneOf => mappingOf
      [("kind", .str "primitive"), ("primitive", .str kind.label),
       ("one_of", .list (oneOf.map Value.str))]
  | .array item => mappingOf [("kind", .str "array"), ("item", document item)]
  | .map slots => mappingOf [("kind", .str "map"), ("fields", .list (slotDocuments slots))]
  | .keyword slots =>
    mappingOf [("kind", .str "keyword"), ("fields", .list (slotDocuments slots))]
  | .tuple slots => mappingOf [("kind", .str "tuple"), ("fields", .list (slotDocuments slots))]
  | .struct name => mappingOf [("kind", .str "struct"), ("instance_of", textOrNull name)]
  | .typedStruct name => mappingOf [("kind", .str "typed_struct"), ("name", .str name)]
  | .union members =>
    mappingOf [("kind", .str "union"), ("members", .list (memberDocuments members))]
  | .resource name => mappingOf [("kind", .str "resource"), ("name", .str name)]
  | .any => mappingOf [("kind", .str "any")]

def slotDocuments : List (Slot TypeRef) → List Value
  | [] => []
  | ⟨name, t, allowNil⟩ :: rest =>
    mappingOf [("name", .str name), ("type", document t), ("allow_nil", .bool allowNil)] ::
      slotDocuments rest

def memberDocuments : List (Member TypeRef) → List Value
  | [] => []
  | ⟨name, t⟩ :: rest =>
    mappingOf [("name", .str name), ("type", document t)] :: memberDocuments rest
end

def documentOrNull : Option TypeRef → Value
  | some t => t.document
  | none => .null

end TypeRef

def namesDocument (names : List (String × String)) : Value :=
  mappingOf (names.map fun entry => (entry.1, .str entry.2))

def StructDef.document (s : StructDef) : Value :=
  mappingOf [("name", .str s.name), ("fields", .list (TypeRef.slotDocuments s.slots)),
    ("field_names", namesDocument s.fieldNames)]

def Argument.document (a : Argument) : Value :=
  mappingOf [("name", .str a.name), ("type", a.type.document), ("allow_nil", .bool a.allowNil),
    ("default", a.default), ("has_default", .bool a.hasDefault)]

def Attribute.document (a : Attribute) : Value :=
  mappingOf [("name", .str a.name), ("type", a.type.document), ("allow_nil", .bool a.allowNil),
    ("default", a.default), ("public", .bool a.isPublic)]

def Calculation.document (a : Calculation) : Value :=
  mappingOf [("name", .str a.name), ("type", a.type.document), ("allow_nil", .bool a.allowNil),
    ("public", .bool a.isPublic), ("arguments", .list (a.arguments.map Argument.document))]

def Aggregate.document (a : Aggregate) : Value :=
  mappingOf [("name", .str a.name), ("kind", .str a.kind.label),
    ("relationship_path", .list (a.path.map Value.str)), ("field", textOrNull a.field),
    ("type", TypeRef.documentOrNull a.type), ("include_nil", .bool a.includeNil),
    ("public", .bool a.isPublic)]

def Relationship.document (a : Relationship) : Value :=
  mappingOf [("name", .str a.name), ("destination", .str a.destination),
    ("cardinality", .str a.cardinality.label), ("allow_nil", .bool a.allowNil),
    ("public", .bool a.isPublic)]

def Action.document (a : Action) : Value :=
  mappingOf [("name", .str a.name), ("type", .str a.kind.label), ("get", .bool a.single),
    ("returns", TypeRef.documentOrNull a.returns),
    ("arguments", .list (a.arguments.map Argument.document))]

def Resource.document (r : Resource) : Value :=
  mappingOf [("name", .str r.name), ("type_name", textOrNull r.typeName),
    ("embedded", .bool r.embedded), ("attributes", .list (r.attributes.map Attribute.document)),
    ("calculations", .list (r.calculations.map Calculation.document)),
    ("aggregates", .list (r.aggregates.map Aggregate.document)),
    ("relationships", .list (r.relationships.map Relationship.document)),
    ("actions", .list (r.actions.map Action.document)),
    ("field_names", namesDocument r.fieldNames),
    ("argument_names", mappingOf (r.argumentNames.map fun entry =>
      (entry.1, namesDocument entry.2)))]

end FieldPlan
