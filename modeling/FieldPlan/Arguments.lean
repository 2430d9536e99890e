import FieldPlan.Selection

/-! Arguments of calculations: the object that carries them, the values that fit a
type, and the values given under the declared names. -/
namespace FieldPlan.Arguments

def argsKey : String := "args"

def fieldsKey : String := "fields"

def isFormKey : Value → Bool
  | .str s => s == argsKey || s == fieldsKey
  | _ => false

/-- The value is a mapping with `args`, perhaps `fields`, and nothing else. -/
def isArgsForm : Value → Bool
  | .mapping entries => (Value.lookup entries argsKey).isSome && entries.all fun e => isFormKey e.1
  | _ => false

def isText : Value → Bool
  | .str _ => true
  | _ => false

def isNumber : Value → Bool
  | .int _ => true
  | .float _ => true
  | _ => false

def fitsPrimitive (kind : Primitive) (v : Value) : Bool :=
  match kind with
  | .boolean => match v with
    | .bool _ => true
    | _ => false
  | .integer => match v with
    | .int _ => true
    | _ => false
  | .float => isNumber v
  | .duration => isNumber v
  | .decimal => isNumber v || isText v
  | .term => true
  | _ => isText v

/-- The value fits the type. Only scalars, arrays and maps are checked. -/
def fits : TypeRef → Value → Bool
  | .array item, v =>
    match v with
    | .list items => items.all fun x => x.isNull || fits item x
    | _ => false
  | .map _, v =>
    match v with
    | .mapping _ => true
    | _ => false
  | .primitive kind [], v => fitsPrimitive kind v
  | .primitive _ oneOf, v =>
    match v with
    | .str s => oneOf.contains s
    | _ => false
  | _, _ => true

def problem? (argument : Argument) (v : Value) : Option String :=
  if v.isNull then
    if argument.allowNil then none else some "argument does not accept null"
  else if fits argument.type v then none
  else some ("value " ++ v.literal ++ " does not match the argument type")

def invalid {α : Type} (path : List String) (name : String) (detail : List (String × String)) :
    Outcome α :=
  reject .invalidCalculationArgs path (some name) detail

def declared? (arguments : List Argument) (key : Value) : Option Argument :=
  match key with
  | .str s =>
    let known := byName Argument.name arguments
    known.find? (·.name == Selection.slotName (known.map Argument.name) [] s)
  | _ => none

/-- Takes the given values one by one, `done` being those taken so far. -/
def take (arguments : List Argument) (path : List String) (name : String)
    (done : List (String × Value)) : List (Value × Value) → Outcome (List (String × Value))
  | [] => .ok done
  | (key, v) :: rest =>
    match declared? arguments key with
    | none => invalid path name [("problem", "unknown argument"), ("argument", key.plain)]
    | some argument =>
      if done.any (·.1 == argument.name) then
        invalid path name [("problem", "argument given twice"), ("argument", argument.name)]
      else match problem? argument v with
        | some problem => invalid path name [("problem", problem), ("argument", argument.name)]
        | none => take arguments path name (done ++ [(argument.name, v)]) rest

/-- The given values under the declared names, in the order given. -/
def resolve (arguments : List Argument) (path : List String) (name : String) :
    Value → Outcome (List (String × Value))
  | .mapping entries => do
    let given ← take arguments path name [] entries
    match arguments.find? fun a => !(given.any (·.1 == a.name)) && a.isRequired with
    | some a => invalid path name [("problem", "missing required argument"), ("argument", a.name)]
    | none => return given
  | _ => invalid path name [("problem", "'args' must be an object")]

end FieldPlan.Arguments
