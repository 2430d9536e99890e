import FieldPlan.Schema.TypeMap

/-! Which resources get definitions: the exposed roots and every exposed resource that
one of them refers to, directly or through others, each in the order in which it
is first found. -/
namespace FieldPlan.Schema

/-- Without an allow-list the resources of the catalog are exposed. -/
def admits (c : Catalog) (e : Exposure) (name : String) : Bool :=
  match e with
  | none => c.hasResource name
  | some names => names.contains name

/-- The resources among the mentions of a type. A struct has to be there. -/
def mentioned (c : Catalog) : List Mention → Result (List String)
  | [] => .ok []
  | .resource name :: rest => (mentioned c rest).map (name :: ·)
  | .instance name :: rest =>
    if c.hasResource name then (mentioned c rest).map (name :: ·) else mentioned c rest
  | .missingStruct name :: _ => fault (.unknownStruct name)
  | .endless :: _ => crash .endless

def typeResources (c : Catalog) (t : TypeRef) : Result (List String) :=
  mentioned c (c.mentions t)

def typesResources (c : Catalog) : List TypeRef → Result (List String)
  | [] => .ok []
  | t :: rest => do return (← typeResources c t) ++ (← typesResources c rest)

/-- The resources in the types of aggregates; the type of each is found when its turn
comes, and need not be there. -/
def summaryResources (c : Catalog) (r : Resource) : List Aggregate → Result (List String)
  | [] => .ok []
  | a :: rest =>
    match c.aggregateType r a with
    | .found t => do return (← typeResources c t) ++ (← summaryResources c r rest)
    | .missing => summaryResources c r rest
    | .unfinished => crash .endless

def references (c : Catalog) (e : Exposure) (r : Resource) : Result (List String) := do
  let stored ← typesResources c (r.publicAttributes.map Attribute.type)
  let derived ← typesResources c (r.publicCalculations.map Calculation.type)
  let summed ← summaryResources c r r.publicAggregates
  return (r.publicRelationships.map Relationship.destination ++ stored ++ derived ++ summed).filter
    (admits c e)

/-- The roots that are exposed; all have to be in the catalog. -/
def admittedRoots (c : Catalog) (e : Exposure) : List String → Result (List String)
  | [] => .ok []
  | name :: rest =>
    if c.hasResource name then
      (admittedRoots c e rest).map fun names => if admits c e name then name :: names else names
    else fault (.unknownResource name)

/-- Takes names from the queue, each once; `found` holds the resources so far. -/
def reachFrom (c : Catalog) (e : Exposure) :
    Nat → List String → List Resource → Result (List Resource)
  | 0, _, found => .ok found
  | n + 1, queue, found =>
    match queue.dropWhile fun name => found.any (·.name == name) with
    | [] => .ok found
    | name :: rest =>
      match c.resource? name with
      | none => fault (.unknownResource name)
      | some r => do
        let refs ← references c e r
        reachFrom c e n (rest ++ refs) (found ++ [r])

/-- The reachable resources, level by level. Every step but the last finds one more
resource of the catalog. -/
def reachable (c : Catalog) (e : Exposure) (roots : List String) : Result (List Resource) := do
  reachFrom c e (c.resources.length + 1) (← admittedRoots c e roots) []

end FieldPlan.Schema
