/-! Type expressions of the definitions that clients get, and their text. -/
namespace FieldPlan

structure TypeMember (τ : Type) where
  name : String
  isOptional : Bool
  type : τ

inductive TypeExpr where
  | named (name : String)
  | literal (value : String)
  | schema (resource : String) (definition : String)
  | array (item : TypeExpr)
  | union (options : List TypeExpr)
  /-- An object with its members between semicolons. -/
  | object (members : List (TypeMember TypeExpr))
  /-- An object with a semicolon after every member. -/
  | metadata (members : List (TypeMember TypeExpr))

namespace TypeExpr

instance : Inhabited TypeExpr := ⟨.named "any"⟩

def orNull (t : TypeExpr) : TypeExpr := .union [t, .named "null"]

def orNullIf (nullable : Bool) (t : TypeExpr) : TypeExpr := if nullable then t.orNull else t

def oneOf (values : List String) : TypeExpr :=
  if values.isEmpty then .named "never" else .union (values.map literal)

def memberText (name : String) (isOptional : Bool) (type : String) : String :=
  name ++ (if isOptional then "?: " else ": ") ++ type

mutual
def render : TypeExpr → String
  | .named name => name
  | .literal value => "\"" ++ value ++ "\""
  | .schema _ definition => definition
  | .array item => "Array<" ++ render item ++ ">"
  | .union options => " | ".intercalate (renderAll options)
  | .object [] => "\x7b\x7d"
  | .object members => "\x7b " ++ "; ".intercalate (renderMembers members) ++ " \x7d"
  | .metadata members =>
    "\x7b " ++ String.join ((renderMembers members).map (· ++ "; ")) ++ "\x7d"

def renderAll : List TypeExpr → List String
  | [] => []
  | t :: rest => render t :: renderAll rest

def renderMembers : List (TypeMember TypeExpr) → List String
  | [] => []
  | ⟨name, isOptional, t⟩ :: rest => memberText name isOptional (render t) :: renderMembers rest
end

mutual
def resources : TypeExpr → List String
  | .named _ => []
  | .literal _ => []
  | .schema resource _ => [resource]
  | .array item => resources item
  | .union options => resourcesOfAll options
  | .object members => resourcesOfMembers members
  | .metadata members => resourcesOfMembers members

def resourcesOfAll : List TypeExpr → List String
  | [] => []
  | t :: rest => resources t ++ resourcesOfAll rest

def resourcesOfMembers : List (TypeMember TypeExpr) → List String
  | [] => []
  | ⟨_, _, t⟩ :: rest => resources t ++ resourcesOfMembers rest
end

end TypeExpr
end FieldPlan
