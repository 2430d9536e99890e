import FieldPlan.Breakdown
import FieldPlan.Load
import FieldPlan.Name
import FieldPlan.Value.Order
import FieldPlan.Value.Text

/-! The configuration of a project: its catalog, where its definitions go, how its
names are written and which resources it exposes. -/
namespace FieldPlan

structure Config where
  catalog : String
  output : String
  formatter : Formatter
  /-- The exposed resources; none stands for all. -/
  resources : List String
  deriving DecidableEq, Repr

namespace Config

def fileName : String := "rpcshape.yaml"

def defaultOutput : String := "rpcshape-generated.ts"

inductive Problem where
  | absent
  | unreadable
  | malformed
  | noMapping
  | unknownKeys (keys : List Value)
  | missing (key : String)
  | noText (key : String)
  | unknownFormatter (given : String)
  | noNames
  | breakdown (b : Breakdown)

def Problem.trouble (label : String) : Problem → Trouble
  | .absent => .told (.closed ("Project config file not found: " ++ label))
  | .unreadable => .told ⟨"Cannot read project config file", true⟩
  | .malformed => .told ⟨"Invalid YAML in " ++ label, true⟩
  | .noMapping => .told (.closed (label ++ ": project config must be a YAML mapping"))
  | .unknownKeys keys =>
    .told (.closed (label ++ ": unknown field(s) " ++ ", ".intercalate (keys.map Value.literal)))
  | .missing key => .told (.closed (label ++ ": missing required field '" ++ key ++ "'"))
  | .noText key => .told (.closed (label ++ ": '" ++ key ++ "' must be a non-empty string"))
  | .unknownFormatter given =>
    .told (.closed (label ++ ": 'field-formatter' must be one of " ++
      ", ".intercalate (Formatter.all.map Formatter.label) ++ ", got '" ++ given ++ "'"))
  | .noNames => .told (.closed (label ++ ": 'resources' must be a list of resource names"))
  | .breakdown b => .breakdown b

def knownKeys : List String := ["catalog", "output", "field-formatter", "resources"]

def isKnown : Value → Bool
  | .str key => knownKeys.contains key
  | _ => false

def unknownKeys (entries : List (Value × Value)) : List Value :=
  (entries.map (·.1)).filter fun key => !isKnown key

def checkKeys (entries : List (Value × Value)) : Except Problem Unit :=
  match unknownKeys entries with
  | [] => .ok ()
  | keys => .error (match Value.sorted? keys with
    | some sorted => .unknownKeys sorted
    | none => .breakdown .unordered)

def textOf (key : String) : Value → Except Problem String
  | .str s => if s == "" then .error (.noText key) else .ok s
  | _ => .error (.noText key)

def requiredText (entries : List (Value × Value)) (key : String) : Except Problem String :=
  match Value.lookup entries key with
  | some v => textOf key v
  | none => .error (.missing key)

def optionalText (entries : List (Value × Value)) (key fallback : String) :
    Except Problem String :=
  match Value.lookup entries key with
  | some v => textOf key v
  | none => .ok fallback

def formatterOf (entries : List (Value × Value)) : Except Problem Formatter := do
  let label ← optionalText entries "field-formatter" Formatter.camelCase.label
  match Formatter.ofLabel? label with
  | some formatter => return formatter
  | none => throw (.unknownFormatter label)

def resourcesOf (entries : List (Value × Value)) : Except Problem (List String) :=
  match Value.lookup entries "resources" with
  | none => .ok []
  | some (.list items) =>
    match items.mapM Value.str? with
    | some names => .ok names
    | none => .error .noNames
  | some _ => .error .noNames

def ofDocument : Value → Except Problem Config
  | .mapping entries => do
    checkKeys entries
    return { catalog := ← requiredText entries "catalog"
             output := ← optionalText entries "output" defaultOutput
             formatter := ← formatterOf entries
             resources := ← resourcesOf entries }
  | _ => .error .noMapping

def Problem.ofFailure : Load.Failure → Problem
  | .malformed => .malformed
  | .stopped words => .breakdown (.reader words)

def ofText (load : Load) (text : String) : Except Problem Config :=
  match load text with
  | .ok document => ofDocument document
  | .error failure => .error (.ofFailure failure)

def initialText (catalog : String) : String :=
  "# rpcshape project configuration\ncatalog: " ++ catalog ++ "\noutput: " ++ defaultOutput ++
    "\nfield-formatter: " ++ Formatter.camelCase.label ++ "\n"

end Config
end FieldPlan
