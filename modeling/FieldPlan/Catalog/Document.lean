import FieldPlan.Catalog.Problem
import FieldPlan.Resource

/-! The documents that describe types, resources and whole catalogs. -/
namespace FieldPlan

namespace Value

mutual
def depth : Value → Nat
  | .list items => 1 + depths items
  | .tuple items => 1 + depths items
  | .mapping entries => 1 + entryDepths entries
  | _ => 0

def depths : List Value → Nat
  | [] => 0
  | v :: rest => max (depth v) (depths rest)

def entryDepths : List (Value × Value) → Nat
  | [] => 0
  | (_, v) :: rest => max (depth v) (entryDepths rest)
end

end Value

namespace Check

def slot (type : Check TypeRef) : Check (Slot TypeRef) :=
  fields fun place entries =>
    Slot.mk <$> required place entries "name" text <*> required place entries "type" type
      <*> optional place entries "allow_nil" true flag

def member (type : Check TypeRef) : Check (Member TypeRef) :=
  fields fun place entries =>
    Member.mk <$> required place entries "name" text <*> required place entries "type" type

def typeOfKind? (type : Check TypeRef) (kind : String) (place : List Step)
    (entries : List (Value × Value)) : Option (Checked TypeRef) :=
  let slots := optional place entries "fields" [] (list (slot type))
  match kind with
  | "primitive" => some (TypeRef.primitive
      <$> required place entries "primitive" (labelled Primitive.ofLabel?)
      <*> optional place entries "one_of" [] (list text))
  | "array" => some (TypeRef.array <$> required place entries "item" type)
  | "map" => some (TypeRef.map <$> slots)
  | "keyword" => some (TypeRef.keyword <$> slots)
  | "tuple" => some (TypeRef.tuple <$> slots)
  | "struct" => some (TypeRef.struct <$> optional place entries "instance_of" none (orNull text))
  | "typed_struct" => some (TypeRef.typedStruct <$> required place entries "name" text)
  | "union" => some (TypeRef.union <$> optional place entries "members" [] (list (member type)))
  | "resource" => some (TypeRef.resource <$> required place entries "name" text)
  | "any" => some (pure .any)
  | _ => none

/-- A type nested to at most the given depth. Its kind is a step of its place. -/
def typeWithin : Nat → Check TypeRef
  | n, place, .mapping entries =>
    match Value.lookup entries "kind" with
    | none => .fail place .unionTagNotFound
    | some (.str kind) =>
      let inner : Check TypeRef := match n with
        | 0 => fun place _ => .fail place .modelAttributesType
        | n + 1 => typeWithin n
      (typeOfKind? inner kind (place ++ [.key kind]) entries).getD (.fail place .unionTagInvalid)
    | some _ => .fail place .unionTagInvalid
  | _, place, _ => .fail place .modelAttributesType

def type : Check TypeRef := fun place v => typeWithin v.depth place v

def argument : Check Argument :=
  fields fun place entries =>
    Argument.mk <$> required place entries "name" text <*> required place entries "type" type
      <*> optional place entries "allow_nil" true flag
      <*> optional place entries "default" .null anything
      <*> optional place entries "has_default" false flag

def storedField : Check Attribute :=
  fields fun place entries =>
    Attribute.mk <$> required place entries "name" text <*> required place entries "type" type
      <*> optional place entries "allow_nil" true flag
      <*> optional place entries "default" .null anything
      <*> optional place entries "public" true flag

def calculation : Check Calculation :=
  fields fun place entries =>
    Calculation.mk <$> required place entries "name" text <*> required place entries "type" type
      <*> optional place entries "allow_nil" true flag
      <*> optional place entries "public" true flag
      <*> optional place entries "arguments" [] (list argument)

def aggregate : Check Aggregate :=
  fields fun place entries =>
    Aggregate.mk <$> required place entries "name" text
      <*> required place entries "kind" (labelled AggregateKind.ofLabel?)
      <*> optional place entries "relationship_path" [] (list text)
      <*> optional place entries "field" none (orNull text)
      <*> optional place entries "type" none (orNull type)
      <*> optional place entries "include_nil" false flag
      <*> optional place entries "public" true flag

def relationship : Check Relationship :=
  fields fun place entries =>
    Relationship.mk <$> required place entries "name" text
      <*> required place entries "destination" text
      <*> optional place entries "cardinality" .belongsTo (labelled Cardinality.ofLabel?)
      <*> optional place entries "allow_nil" true flag
      <*> optional place entries "public" true flag

def action : Check Action :=
  fields fun place entries =>
    Action.mk <$> required place entries "name" text
      <*> optional place entries "type" .read (labelled ActionKind.ofLabel?)
      <*> optional place entries "get" false flag
      <*> optional place entries "returns" none (orNull type)
      <*> optional place entries "arguments" [] (list argument)

def resource : Check Resource :=
  fields fun place entries =>
    Resource.mk <$> required place entries "name" text
      <*> optional place entries "type_name" none (orNull text)
      <*> optional place entries "embedded" false flag
      <*> optional place entries "attributes" [] (list storedField)
      <*> optional place entries "calculations" [] (list calculation)
      <*> optional place entries "aggregates" [] (list aggregate)
      <*> optional place entries "relationships" [] (list relationship)
      <*> optional place entries "actions" [] (list action)
      <*> optional place entries "field_names" [] (mapping text)
      <*> optional place entries "argument_names" [] (mapping (mapping text))

def structDef : Check StructDef :=
  fields fun place entries =>
    StructDef.mk <$> required place entries "name" text
      <*> optional place entries "fields" [] (list (slot type))
      <*> optional place entries "field_names" [] (mapping text)

/-- The keys that a catalog document has; structs come under either of two. -/
def structsKey (entries : List (Value × Value)) : String :=
  if (Value.lookup entries "typed-structs").isSome then "typed-structs" else "typed_structs"

def extras (entries : List (Value × Value)) : Checked Unit :=
  .both (fun _ _ => ()) (pure ()) (.all (entries.map fun entry =>
    match entry.1 with
    | .str s =>
      if s == "resources" || s == structsKey entries then pure ()
      else .fail [.key s] .extraForbidden
    | key => .fail [Step.ofKey key] .invalidKey))

def catalog (v : Value) : Checked (List Resource × List StructDef) :=
  fields (fun place entries =>
    .both (fun parts _ => parts)
      (Prod.mk <$> optional place entries "resources" [] (list resource)
        <*> optional place entries (structsKey entries) [] (list structDef))
      (extras entries)) [] v

end Check

end FieldPlan
