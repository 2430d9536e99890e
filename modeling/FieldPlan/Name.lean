import FieldPlan.Text.LetterCase
import FieldPlan.Text.Split

/-! Naming conventions: words joined by underscores inside a catalog, and the
convention of the clients outside it. -/
namespace FieldPlan.Name

def capitalize : List Char → List Char
  | [] => []
  | c :: rest => Text.upper c ++ rest

def camelChars (name : List Char) : List Char :=
  match Text.split '_' name with
  | [] => []
  | head :: rest => head ++ rest.flatMap capitalize

/-- Drops underscores and capitalizes the words after them. -/
def toCamel (name : String) : String := String.ofList (camelChars name.toList)

/-- A new word starts between a small letter or digit and a capital, of the plain alphabet. -/
def startsWord (before c : Char) : Bool := (before.isLower || before.isDigit) && c.isUpper

def separate : List Char → List Char
  | [] => []
  | [c] => [c]
  | a :: b :: rest =>
    if startsWord a b then a :: '_' :: separate (b :: rest) else a :: separate (b :: rest)

def snakeChars (name : List Char) : List Char := Text.lower (separate name)

/-- Puts underscores before the capitals that start a word, all in lower case. -/
def fromCamel (name : String) : String := String.ofList (snakeChars name.toList)

end Name

/-- The convention for names outside the catalog. -/
inductive Formatter where
  | camelCase
  | snakeCase
  | pascalCase
  deriving DecidableEq, Repr, Inhabited

namespace Formatter

def all : List Formatter := [.camelCase, .snakeCase, .pascalCase]

def label : Formatter → String
  | .camelCase => "camel_case"
  | .snakeCase => "snake_case"
  | .pascalCase => "pascal_case"

def ofLabel? (text : String) : Option Formatter := all.find? (·.label == text)

def format (formatter : Formatter) (name : String) : String :=
  match formatter with
  | .camelCase => Name.toCamel name
  | .snakeCase => Name.fromCamel name
  | .pascalCase => String.ofList (Name.capitalize (Name.camelChars name.toList))

end Formatter
end FieldPlan
