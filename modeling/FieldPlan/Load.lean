import FieldPlan.Value

/-! Readers of documents. A reader takes a text for not well formed, or it stops for a
reason of its own, such as a scalar with the shape of a date that is none. -/
namespace FieldPlan

inductive Load.Failure where
  | malformed
  | stopped (words : String)
  deriving DecidableEq, Repr

abbrev Load := String → Except Load.Failure Value

end FieldPlan
