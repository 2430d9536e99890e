import FieldPlan.Catalog
import FieldPlan.Value.Text

/-! Why a selection is turned down: the kind of problem, the path of names from the
root of the result, the field in question and details for programs. -/
namespace FieldPlan

namespace Rejection

inductive Kind where
  | actionNotFound
  | unknownField
  | requiresFieldSelection
  | duplicateField
  | invalidFieldType
  | invalidFieldSelection
  | fieldDoesNotSupportNesting
  | calculationRequiresArgs
  | invalidCalculationArgs
  | unsupportedFieldCombination
  | invalidUnionFieldFormat
  deriving DecidableEq, Repr

namespace Kind

def all : List Kind :=
  [.actionNotFound, .unknownField, .requiresFieldSelection, .duplicateField,
   .invalidFieldType, .invalidFieldSelection, .fieldDoesNotSupportNesting,
   .calculationRequiresArgs, .invalidCalculationArgs, .unsupportedFieldCombination,
   .invalidUnionFieldFormat]

def label : Kind → String
  | .actionNotFound => "action_not_found"
  | .unknownField => "unknown_field"
  | .requiresFieldSelection => "requires_field_selection"
  | .duplicateField => "duplicate_field"
  | .invalidFieldType => "invalid_field_type"
  | .invalidFieldSelection => "invalid_field_selection"
  | .fieldDoesNotSupportNesting => "field_does_not_support_nesting"
  | .calculationRequiresArgs => "calculation_requires_args"
  | .invalidCalculationArgs => "invalid_calculation_args"
  | .unsupportedFieldCombination => "unsupported_field_combination"
  | .invalidUnionFieldFormat => "invalid_union_field_format"

def ofLabel? (text : String) : Option Kind := all.find? (·.label == text)

end Kind
end Rejection

structure Rejection where
  kind : Rejection.Kind
  path : List String
  field : Option String := none
  detail : List (String × Value) := []

namespace Rejection

def dotted (path : List String) : String := ".".intercalate path

def place (r : Rejection) : String :=
  let path := dotted r.path
  if path == "" then "the selection root" else "'" ++ path ++ "'"

def detail? (r : Rejection) (key : String) : Option Value := Table.get? r.detail key

def message (r : Rejection) : String :=
  match r.kind with
  | .actionNotFound => "Action '" ++ r.field.getD "None" ++ "' not found"
  | .unknownField => "Unknown field " ++ r.place
  | .requiresFieldSelection =>
    "Field " ++ r.place ++ " (" ++ ((r.detail? "reason").getD (.str "field")).plain ++
      ") requires a nested field selection"
  | .duplicateField => "Field " ++ r.place ++ " was requested multiple times"
  | .invalidFieldType =>
    "Invalid field entry " ++ ((r.detail? "value").getD .null).literal ++ " at " ++ r.place
  | .invalidFieldSelection => "Field selection is not allowed on " ++ r.place
  | .fieldDoesNotSupportNesting =>
    "Field " ++ r.place ++ " does not support nested field selection"
  | .calculationRequiresArgs => "Calculation " ++ r.place ++ " requires arguments"
  | .invalidCalculationArgs =>
    let problem := (r.detail? "problem").getD .null
    "Invalid calculation arguments for " ++ r.place ++
      (if problem.isBlank then "" else ": " ++ problem.plain)
  | .unsupportedFieldCombination =>
    "Unsupported nested selection for " ++ r.place ++ "; expected a list of fields"
  | .invalidUnionFieldFormat => "Invalid union member selection for " ++ r.place

def document (r : Rejection) : Value :=
  .mapping ([(.str "kind", .str r.kind.label), (.str "path", .str (dotted r.path))] ++
    (r.field.toList.map fun name => (.str "field", .str name)) ++
    (if r.detail.isEmpty then []
     else [(.str "detail", .mapping (r.detail.map fun entry => (.str entry.1, entry.2)))]))

end Rejection

/-- What ends the work on a selection: the selection itself, a hole in the catalog, or
a catalog that the work is not made for. -/
inductive Failure where
  | rejected (rejection : Rejection)
  | fault (fault : Catalog.Fault)
  | crashed (crash : Crash)

abbrev Outcome := Except Failure

def crash {α : Type} (crash : Crash) : Outcome α := .error (.crashed crash)

def reject {α : Type} (kind : Rejection.Kind) (path : List String) (field : Option String)
    (detail : List (String × String)) : Outcome α :=
  .error (.rejected ⟨kind, path, field, detail.map fun entry => (entry.1, .str entry.2)⟩)

def requiresFields {α : Type} (reason : String) (path : List String) (field : Option String) :
    Outcome α :=
  reject .requiresFieldSelection path field [("reason", reason)]

def ofCatalog {α : Type} : Except Catalog.Fault α → Outcome α
  | .ok a => .ok a
  | .error f => .error (.fault f)

theorem ofCatalog_ok {α : Type} {x : Except Catalog.Fault α} {a : α} (h : ofCatalog x = .ok a) :
    x = .ok a := by
  cases x with
  | ok b =>
    cases h
    rfl
  | error fault => cases h

end FieldPlan
