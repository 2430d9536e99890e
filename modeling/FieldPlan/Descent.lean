import FieldPlan.Descent.Record

/-! From a selection to a plan. One layer works on one level and hands every nested
selection on; the nested selection weighs less than the level, so that the
layers come to an end however the types of the catalog refer to each other. -/
namespace FieldPlan

namespace Descent
variable (c : Catalog) (e : Exposure) (descend : Descend)

/-- A selection on a value. Arrays are looked through. -/
def typed (t : TypeRef) (selection : Value) (path : List String) : Outcome Level :=
  match t.element with
  | .resource name => do record c e descend (← enter c e name path) selection path
  | .map declared =>
    if declared.isEmpty then untyped descend selection path
    else plainSlots c descend "map_field" declared (Selection.normalize selection) path
  | .keyword declared =>
    if declared.isEmpty then untyped descend selection path
    else plainSlots c descend "map_field" declared (Selection.normalize selection) path
  | .tuple declared =>
    if declared.isEmpty then untyped descend selection path
    else tupleSlots c descend declared (Selection.normalize selection) path
  | .struct (some name) =>
    if c.hasResource name then do record c e descend (← enter c e name path) selection path
    else untyped descend selection path
  | .struct none => untyped descend selection path
  | .typedStruct name => do
    let fields ← Selection.requireSome "typed_struct" path path.getLast?
      (Selection.normalize selection)
    structMembers c descend name (.list fields) path
  | .union members => unionMembers c descend members selection path
  | .any => untyped descend selection path
  | .primitive _ _ =>
    if !selection.isBlank then reject .invalidFieldSelection path path.getLast? []
    else .ok .empty
  | .array _ => untyped descend selection path

/-- One layer of the work. -/
def layer : Descend
  | .records name _, selection, path => do
    record c e descend (← enter c e name path) selection path
  | .value t, selection, path => typed c e descend t selection path
  | .untyped, selection, path => untyped descend selection path

end Descent

/-- Works on a selection at a position, through all its levels. A layer asks only for
lighter selections, so the other branch is never taken, as `descend_eq` says. -/
def descend (c : Catalog) (e : Exposure) (position : Position) (selection : Value)
    (path : List String) : Outcome Level :=
  Descent.layer c e
    (fun position nested path =>
      if _ : nested.weight < selection.weight then descend c e position nested path
      else .ok .empty)
    position selection path
termination_by selection.weight

/-- The plan for a selection on the result of an action. -/
def plan (c : Catalog) (resource action : String) (selection : Value) (e : Exposure) :
    Outcome Level := do
  let r ← ofCatalog (c.resource resource)
  match r.action? action with
  | none => reject .actionNotFound [] (some action) []
  | some a =>
    descend c (e.withRoot r.name) (.ofAction r.name a) (Selection.normalize selection) []

end FieldPlan
