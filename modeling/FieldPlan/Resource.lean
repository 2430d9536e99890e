import FieldPlan.Name
import FieldPlan.Table
import FieldPlan.TypeRef
import FieldPlan.Value

/-! Resources: record types with stored fields, derived fields, links to other
resources and actions. Only public fields can be asked for; of several fields
of one kind and name the last one counts, in the place of the first. -/
namespace FieldPlan

structure Argument where
  name : String
  type : TypeRef
  allowNil : Bool := true
  default : Value := .null
  hasDefault : Bool := false

def Argument.isRequired (argument : Argument) : Bool :=
  !argument.allowNil && !argument.hasDefault && argument.default.isNull

structure Attribute where
  name : String
  type : TypeRef
  allowNil : Bool := true
  default : Value := .null
  isPublic : Bool := true

structure Calculation where
  name : String
  type : TypeRef
  allowNil : Bool := true
  isPublic : Bool := true
  arguments : List Argument := []

inductive AggregateKind where
  | count | exists | sum | avg | min | max | first | list
  deriving DecidableEq, Repr

namespace AggregateKind

def all : List AggregateKind := [.count, .exists, .sum, .avg, .min, .max, .first, .list]

def label : AggregateKind → String
  | .count => "count"
  | .exists => "exists"
  | .sum => "sum"
  | .avg => "avg"
  | .min => "min"
  | .max => "max"
  | .first => "first"
  | .list => "list"

def ofLabel? (text : String) : Option AggregateKind := all.find? (·.label == text)

end AggregateKind

/-- A derived field that sums up the records at the end of a path of relationships. -/
structure Aggregate where
  name : String
  kind : AggregateKind
  path : List String := []
  field : Option String := none
  /-- The type of the value, if it is not derived from the field. -/
  type : Option TypeRef := none
  includeNil : Bool := false
  isPublic : Bool := true

inductive Cardinality where
  | belongsTo | hasOne | hasMany | manyToMany
  deriving DecidableEq, Repr

namespace Cardinality

def all : List Cardinality := [.belongsTo, .hasOne, .hasMany, .manyToMany]

def label : Cardinality → String
  | .belongsTo => "belongs_to"
  | .hasOne => "has_one"
  | .hasMany => "has_many"
  | .manyToMany => "many_to_many"

def ofLabel? (text : String) : Option Cardinality := all.find? (·.label == text)

end Cardinality

structure Relationship where
  name : String
  destination : String
  cardinality : Cardinality := .belongsTo
  allowNil : Bool := true
  isPublic : Bool := true

def Relationship.isMany (relationship : Relationship) : Bool :=
  relationship.cardinality == .hasMany || relationship.cardinality == .manyToMany

inductive ActionKind where
  | read | create | update | destroy | generic
  deriving DecidableEq, Repr

namespace ActionKind

def all : List ActionKind := [.read, .create, .update, .destroy, .generic]

def label : ActionKind → String
  | .read => "read"
  | .create => "create"
  | .update => "update"
  | .destroy => "destroy"
  | .generic => "action"

def ofLabel? (text : String) : Option ActionKind := all.find? (·.label == text)

end ActionKind

/-- An operation that clients can call. Only generic actions use `returns`, and
only read actions `single`. -/
structure Action where
  name : String
  kind : ActionKind := .read
  single : Bool := false
  returns : Option TypeRef := none
  arguments : List Argument := []

structure Resource where
  name : String
  typeName : Option String := none
  /-- Stored inside other resources, not queried on its own. -/
  embedded : Bool := false
  attributes : List Attribute := []
  calculations : List Calculation := []
  aggregates : List Aggregate := []
  relationships : List Relationship := []
  actions : List Action := []
  /-- Internal field names and the external ones that stand for them. -/
  fieldNames : List (String × String) := []
  /-- The same for the arguments of each action. -/
  argumentNames : List (String × List (String × String)) := []

namespace Resource

def schemaName (r : Resource) : String :=
  match r.typeName with
  | some name => if name == "" then r.name else name
  | none => r.name

def publicAttributes (r : Resource) : List Attribute :=
  byName Attribute.name (r.attributes.filter Attribute.isPublic)

def publicCalculations (r : Resource) : List Calculation :=
  byName Calculation.name (r.calculations.filter Calculation.isPublic)

def publicAggregates (r : Resource) : List Aggregate :=
  byName Aggregate.name (r.aggregates.filter Aggregate.isPublic)

def publicRelationships (r : Resource) : List Relationship :=
  byName Relationship.name (r.relationships.filter Relationship.isPublic)

def attribute? (r : Resource) (name : String) : Option Attribute :=
  r.publicAttributes.find? (·.name == name)

def calculation? (r : Resource) (name : String) : Option Calculation :=
  r.publicCalculations.find? (·.name == name)

def aggregate? (r : Resource) (name : String) : Option Aggregate :=
  r.publicAggregates.find? (·.name == name)

def relationship? (r : Resource) (name : String) : Option Relationship :=
  r.publicRelationships.find? (·.name == name)

def action? (r : Resource) (name : String) : Option Action :=
  (byName Action.name r.actions).find? (·.name == name)

def hasField (r : Resource) (name : String) : Bool :=
  (r.attribute? name).isSome || (r.calculation? name).isSome ||
    (r.aggregate? name).isSome || (r.relationship? name).isSome

def externalField (r : Resource) (name : String) : String :=
  (Table.get? r.fieldNames name).getD name

/-- The spellings under which a requested name is looked for: as it is, then in
the convention of the clients, then in that of the catalog. -/
def spellings (name : String) : List String :=
  [name] ++ (if name.toList.contains '_' then [Name.toCamel name] else []) ++
    (if Name.fromCamel name == name then [] else [Name.fromCamel name])

/-- The field that a requested name stands for. External names come first, in
every spelling, then declared fields; a name that matches nothing stays. -/
def internalField (r : Resource) (name : String) : String :=
  match (spellings name).findSome? (Table.keyOf? r.fieldNames) with
  | some field => field
  | none => ((spellings name).find? r.hasField).getD name

def externalArgument (r : Resource) (action name : String) : String :=
  (Table.get? ((Table.get? r.argumentNames action).getD []) name).getD name

def internalArgument (r : Resource) (action name : String) : String :=
  (Table.keyOf? ((Table.get? r.argumentNames action).getD []) name).getD name

end Resource
end FieldPlan
