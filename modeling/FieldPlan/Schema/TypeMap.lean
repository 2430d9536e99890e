import FieldPlan.Exposure
import FieldPlan.Schema.TypeExpr

/-! From type references to type expressions. Results name the schemas of resources;
inputs name the input schemas of embedded ones, since they carry plain values. -/
namespace FieldPlan

namespace Schema

inductive Fault where
  | danglingResource (name : String)
  | danglingStruct (name : String)
  | danglingRelationship (relationship resource destination : String)
  | unresolvedAggregate (aggregate resource : String)
  | unknownResource (name : String)
  | unknownStruct (name : String)
  | catalog (fault : Catalog.Fault)
  deriving DecidableEq, Repr

def Fault.message : Fault → String
  | .danglingResource name => "Resource '" ++ name ++ "' is referenced but not part of the catalog"
  | .danglingStruct name =>
    "Typed struct '" ++ name ++ "' is referenced but not part of the catalog"
  | .danglingRelationship relationship owner destination =>
    "Relationship '" ++ relationship ++ "' on resource '" ++ owner ++
      "' points to unknown resource '" ++ destination ++ "'"
  | .unresolvedAggregate aggregate owner =>
    "Cannot resolve the type of aggregate '" ++ aggregate ++ "' on resource '" ++ owner ++ "'"
  | .unknownResource name => "Resource '" ++ name ++ "' is not part of the catalog"
  | .unknownStruct name => "Typed struct '" ++ name ++ "' is not part of the catalog"
  | .catalog f => f.message

/-- What ends the writing: something missing, or a catalog it is not made for. -/
inductive Failure where
  | fault (fault : Fault)
  | crashed (crash : Crash)
  deriving DecidableEq, Repr

abbrev Result := Except Failure

def fault {α : Type} (fault : Fault) : Result α := .error (.fault fault)

def crash {α : Type} (crash : Crash) : Result α := .error (.crashed crash)

inductive Form where
  | output
  | input
  deriving DecidableEq, Repr

def primitiveName : Primitive → String
  | .integer => "number"
  | .float => "number"
  | .boolean => "boolean"
  | .term => "any"
  | _ => "string"

def openObject : TypeExpr := .named "Record<string, any>"

def resourceExpr (c : Catalog) (form : Form) (name : String) : Result TypeExpr :=
  match c.resource? name with
  | none => fault (.danglingResource name)
  | some r =>
    if form == .input && r.embedded then .ok (.schema name (r.schemaName ++ "InputSchema"))
    else .ok (.schema name (r.schemaName ++ "ResourceSchema"))

section
variable (c : Catalog) (formatter : Formatter) (form : Form)
variable (ofStruct : String → Result TypeExpr)

mutual
/-- The expression of a type, those of typed structs being given by `ofStruct`. -/
def typeExprWith : TypeRef → Result TypeExpr
  | .any => .ok (.named "any")
  | .primitive kind oneOf =>
    .ok (if oneOf.isEmpty then .named (primitiveName kind) else .oneOf oneOf)
  | .array item => (typeExprWith item).map .array
  | .map slots =>
    if slots.isEmpty then .ok openObject else (slotExprs [] slots).map .object
  | .keyword slots =>
    if slots.isEmpty then .ok openObject else (slotExprs [] slots).map .object
  | .tuple slots =>
    if slots.isEmpty then .ok (.named "any[]") else (slotExprs [] slots).map .object
  | .struct none => .ok openObject
  | .struct (some name) =>
    if c.hasResource name then resourceExpr c form name else .ok openObject
  | .typedStruct name => ofStruct name
  | .union members =>
    if members.isEmpty then .ok (.named "never") else (memberExprs members).map .union
  | .resource name => resourceExpr c form name

/-- The members for slots, under the external names that `names` gives them. -/
def slotExprs (names : List (String × String)) :
    List (Slot TypeRef) → Result (List (TypeMember TypeExpr))
  | [] => .ok []
  | ⟨name, t, allowNil⟩ :: rest => do
    let expr ← typeExprWith t
    let others ← slotExprs names rest
    let external := formatter.format ((Table.get? names name).getD name)
    return ⟨external, false, expr.orNullIf allowNil⟩ :: others

def memberExprs : List (Member TypeRef) → Result (List TypeExpr)
  | [] => .ok []
  | ⟨name, t⟩ :: rest => do
    let expr ← typeExprWith t
    let others ← memberExprs rest
    return .object [⟨formatter.format name, false, expr⟩] :: others
end

end

/-- The expression of a typed struct, through at most `n` structs inside each other;
one inside itself has none. -/
def structExprWithin (c : Catalog) (formatter : Formatter) (form : Form) :
    Nat → String → Result TypeExpr
  | 0, _ => crash .endless
  | n + 1, name =>
    match c.struct? name with
    | none => fault (.danglingStruct name)
    | some s =>
      (slotExprs c formatter form (structExprWithin c formatter form n) s.fieldNames s.slots).map
        .object

/-- More structs inside each other than there are means that one is inside itself. -/
def structExpr (c : Catalog) (formatter : Formatter) (form : Form) (name : String) :
    Result TypeExpr :=
  structExprWithin c formatter form (c.structs.length + 1) name

def typeExpr (c : Catalog) (formatter : Formatter) (form : Form) (t : TypeRef) :
    Result TypeExpr :=
  typeExprWith c formatter form (structExpr c formatter form) t

def objectExpr (c : Catalog) (formatter : Formatter) (form : Form)
    (names : List (String × String)) (slots : List (Slot TypeRef)) : Result TypeExpr :=
  (slotExprs c formatter form (structExpr c formatter form) names slots).map .object

end Schema
end FieldPlan
