import FieldPlan.Value.Text

/-! Problems in a document and the places where they are. A check goes on after a
problem, so that the answer names all of them in the order of the document's
declared fields. -/
namespace FieldPlan

inductive Step where
  | key (name : String)
  | index (i : Int)
  deriving DecidableEq, Repr

namespace Step

def isWord (i : Int) : Bool := -Nat.pow 2 63 ≤ i && i < Nat.pow 2 63

/-- The step to what lies under a key. A number that fits a machine word steps by
itself, anything else that is no text by its literal form. -/
def ofKey : Value → Step
  | .str s => .key s
  | .bool b => .index (if b then 1 else 0)
  | .int i => if isWord i then .index i else .key (toString i)
  | v => .key v.literal

end Step

namespace Problem

inductive Kind where
  | missing
  | stringType
  | listType
  | mappingType
  | modelType
  | modelAttributesType
  | unionTagNotFound
  | unionTagInvalid
  | enum
  | boolParsing
  | boolType
  | extraForbidden
  | invalidKey
  deriving DecidableEq, Repr

def Kind.label : Kind → String
  | .missing => "missing"
  | .stringType => "string_type"
  | .listType => "list_type"
  | .mappingType => "dict_type"
  | .modelType => "model_type"
  | .modelAttributesType => "model_attributes_type"
  | .unionTagNotFound => "union_tag_not_found"
  | .unionTagInvalid => "union_tag_invalid"
  | .enum => "enum"
  | .boolParsing => "bool_parsing"
  | .boolType => "bool_type"
  | .extraForbidden => "extra_forbidden"
  | .invalidKey => "invalid_key"

end Problem

structure Problem where
  place : List Step
  kind : Problem.Kind
  deriving DecidableEq, Repr

/-- A value read from a document, or all problems that were found. -/
def Checked (α : Type) : Type := Except (List Problem) α

namespace Checked

def problems {α : Type} : Checked α → List Problem
  | .ok _ => []
  | .error ps => ps

/-- Puts two parts together; the problems of both remain. -/
def both {α β γ : Type} (f : α → β → γ) : Checked α → Checked β → Checked γ
  | .ok a, .ok b => .ok (f a b)
  | a, b => .error (a.problems ++ b.problems)

instance : Applicative Checked where
  pure a := .ok a
  seq f a := both (fun g x => g x) f (a ())

def all {α : Type} : List (Checked α) → Checked (List α)
  | [] => pure []
  | item :: rest => both List.cons item (all rest)

def fail {α : Type} (place : List Step) (kind : Problem.Kind) : Checked α :=
  .error [⟨place, kind⟩]

end Checked

abbrev Check (α : Type) := List Step → Value → Checked α

namespace Check

def text : Check String
  | _, .str s => .ok s
  | place, _ => .fail place .stringType

def anything : Check Value := fun _ v => .ok v

def orNull {α : Type} (check : Check α) : Check (Option α) := fun place v =>
  if v.isNull then .ok none else some <$> check place v

def labelled {α : Type} (ofLabel? : String → Option α) : Check α := fun place v =>
  match v.str?.bind ofLabel? with
  | some a => .ok a
  | none => .fail place .enum

def trueWords : List String := ["1", "on", "t", "true", "y", "yes"]

def falseWords : List String := ["0", "off", "f", "false", "n", "no"]

/-- A truth value, or a number or word that stands for one. -/
def flag : Check Bool
  | _, .bool b => .ok b
  | place, .int i =>
    if i == 0 then .ok false else if i == 1 then .ok true else .fail place .boolParsing
  | place, .float x =>
    match x.toInt? with
    | some 0 => .ok false
    | some 1 => .ok true
    | _ => .fail place .boolType
  | place, .str s =>
    let word := String.ofList (s.toList.map Char.toLower)
    if trueWords.contains word then .ok true
    else if falseWords.contains word then .ok false
    else .fail place .boolParsing
  | place, _ => .fail place .boolType

def itemsFrom {α : Type} (check : Check α) (place : List Step) : Nat → List Value → List (Checked α)
  | _, [] => []
  | i, v :: rest => check (place ++ [.index i]) v :: itemsFrom check place (i + 1) rest

def list {α : Type} (check : Check α) : Check (List α)
  | place, .list items => .all (itemsFrom check place 0 items)
  | place, _ => .fail place .listType

/-- A mapping from texts; a key of another kind is a problem beside those of its value. -/
def mapping {α : Type} (check : Check α) : Check (List (String × α))
  | place, .mapping entries => .all (entries.map fun entry =>
      let step := Step.ofKey entry.1
      let key : Checked String := match entry.1 with
        | .str s => .ok s
        | _ => .fail (place ++ [step, .key "[key]"]) .stringType
      .both Prod.mk key (check (place ++ [step]) entry.2))
  | place, _ => .fail place .mappingType

def fields {α : Type} (check : List Step → List (Value × Value) → Checked α) : Check α
  | place, .mapping entries => check place entries
  | place, _ => .fail place .modelType

end Check

section
variable {α : Type} (place : List Step) (entries : List (Value × Value))

def required (key : String) (check : Check α) : Checked α :=
  match Value.lookup entries key with
  | some v => check (place ++ [.key key]) v
  | none => .fail (place ++ [.key key]) .missing

def optional (key : String) (otherwise : α) (check : Check α) : Checked α :=
  match Value.lookup entries key with
  | some v => check (place ++ [.key key]) v
  | none => .ok otherwise

end
end FieldPlan
