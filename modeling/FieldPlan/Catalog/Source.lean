import FieldPlan.Catalog
import FieldPlan.Catalog.Problem
import FieldPlan.Load

/-! Catalogs from text. A text without content is the empty catalog. -/
namespace FieldPlan.Catalog

/-- Checks a document, and gives the resources and the structs that it describes or all problems
with it. -/
abbrev Validate := Value → Except (List Problem) (List Resource × List StructDef)

inductive SourceError where
  | unreadable
  | malformed
  | invalid (problems : List Problem)
  | fault (fault : Fault)
  | breakdown (b : Breakdown)

def SourceError.trouble (label : String) : SourceError → Trouble
  | .unreadable => .told ⟨"Cannot read catalog '" ++ label ++ "'", true⟩
  | .malformed => .told ⟨"Invalid YAML in catalog '" ++ label ++ "'", true⟩
  | .invalid _ => .told ⟨"Invalid catalog '" ++ label ++ "'", true⟩
  | .fault f => .told (.closed f.message)
  | .breakdown b => .breakdown b

def SourceError.ofFailure : Load.Failure → SourceError
  | .malformed => .malformed
  | .stopped words => .breakdown (.reader words)

/-- The document of a text, that of an empty one being an empty mapping. -/
def document (load : Load) (text : String) : Except Load.Failure Value :=
  (load text).map fun
    | .null => .mapping []
    | v => v

def ofText (load : Load) (validate : Validate) (text : String) : Except SourceError Catalog := do
  let document ← (document load text).mapError .ofFailure
  let (resources, structs) ← (validate document).mapError .invalid
  (build resources structs).mapError .fault

end FieldPlan.Catalog
