/-! Command lines. Options may stand in any order, long ones may be shortened as far
as they stay distinct, and a value may follow its option or be attached to it.
After a double hyphen nothing is an option. -/
namespace FieldPlan.CommandLine

inductive Role where
  | help
  | flag
  | value
  deriving DecidableEq, Repr

structure Opt where
  name : String
  letter : Option Char
  role : Role
  deriving DecidableEq, Repr

def Opt.help : Opt := ⟨"help", some 'h', .help⟩

inductive Word where
  | plain (text : String)
  | long (o : Opt) (attached : Option (List Char))
  | short (o : Opt) (rest : List Char)
  | unknown
  | separator
  deriving DecidableEq, Repr

inductive Stop where
  | help
  | misuse
  deriving DecidableEq, Repr

/-! ### Forms of arguments -/

/-- A hyphen and a number in decimal notation. -/
def isNegativeNumber : List Char → Bool
  | '-' :: rest =>
    let whole := rest.takeWhile Char.isDigit
    match rest.dropWhile Char.isDigit with
    | [] => !whole.isEmpty
    | '.' :: fraction => !fraction.isEmpty && fraction.all Char.isDigit
    | _ => false
  | _ => false

def splitAttached (text : List Char) : List Char × Option (List Char) :=
  match text.dropWhile (· ≠ '=') with
  | [] => (text, none)
  | _ :: attached => (text.takeWhile (· ≠ '='), some attached)

def unnamed (text : List Char) : Word :=
  if isNegativeNumber text || text.contains ' ' then .plain (String.ofList text) else .unknown

/-- A long option by its whole name or the beginning of just one. -/
def longForm (opts : List Opt) (text rest : List Char) : Except Stop Word :=
  let (name, attached) := splitAttached rest
  match opts.find? (·.name.toList == name) with
  | some o => .ok (.long o attached)
  | none =>
    match opts.filter fun o => name.isPrefixOf o.name.toList with
    | [] => .ok (unnamed text)
    | [o] => .ok (.long o attached)
    | _ => .error .misuse

def shortForm (opts : List Opt) (text : List Char) (letter : Char) (rest : List Char) : Word :=
  match opts.find? (·.letter == some letter) with
  | some o => .short o rest
  | none => unnamed text

def wordOf (opts : List Opt) (text : String) : Except Stop Word :=
  match text.toList with
  | '-' :: '-' :: rest => longForm opts text.toList rest
  | '-' :: letter :: rest => .ok (shortForm opts text.toList letter rest)
  | _ => .ok (.plain text)

def words (opts : List Opt) : List String → Except Stop (List Word)
  | [] => .ok []
  | "--" :: rest => .ok (.separator :: rest.map Word.plain)
  | text :: rest => do return (← wordOf opts text) :: (← words opts rest)

/-! ### Options -/

structure Use where
  opt : Opt
  attached : Option (List Char)

/-- The options that a letter and the characters after it stand for, and whether
characters are left that stand for none. A value takes all that follows. -/
def cluster (opts : List Opt) (o : Opt) : List Char → Except Stop (List Use × Bool)
  | [] => .ok ([⟨o, none⟩], false)
  | c :: rest =>
    if o.role = .value then .ok ([⟨o, some (if c = '=' then rest else c :: rest)⟩], false)
    else if c = '=' || c = '-' then .error .misuse
    else
      match opts.find? (·.letter == some c) with
      | some next => do
        let (uses, hasRest) ← cluster opts next rest
        return (⟨o, none⟩ :: uses, hasRest)
      | none => .ok ([⟨o, none⟩], true)

/-- Only an option that takes a value can have one attached. -/
def longUse (o : Opt) (attached : Option (List Char)) : Except Stop Use :=
  if attached.isSome && o.role ≠ .value then .error .misuse else .ok ⟨o, attached⟩

structure Given where
  /-- Names of flags and of options with their values, the latest first. -/
  options : List (String × String)
  /-- The one argument that is no option, once its turn is over. -/
  argument : Option (Option String)
  /-- Something was given that has no place. -/
  hasExtra : Bool

namespace Given

def start : Given := ⟨[], none, false⟩

def put (g : Given) (name value : String) : Given :=
  { g with options := (name, value) :: g.options }

def extra (g : Given) : Given := { g with hasExtra := true }

def value? (g : Given) (name : String) : Option String := g.options.lookup name

def has (g : Given) (name : String) : Bool := (g.value? name).isSome

def required (g : Given) (name : String) : Except Stop String :=
  match g.value? name with
  | some v => .ok v
  | none => .error .misuse

end Given

/-- Takes options in order. The last one may wait for its value in the next word. -/
def take (g : Given) : List Use → Except Stop (Given × Option Opt)
  | [] => .ok (g, none)
  | ⟨o, attached⟩ :: rest =>
    match o.role, attached with
    | .help, _ => .error .help
    | .flag, _ => take (g.put o.name "") rest
    | .value, some v => take (g.put o.name (String.ofList v)) rest
    | .value, none => .ok (g, some o)

def takeWord (opts : List Opt) (g : Given) : Word → Except Stop (Given × Option Opt)
  | .long o attached => do take g [← longUse o attached]
  | .short o rest => do
    let (uses, hasRest) ← cluster opts o rest
    take (if hasRest then g.extra else g) uses
  | _ => .ok (g.extra, none)

/-! ### Arguments -/

def read (opts : List Opt) (g : Given) : List Word → Except Stop Given
  | [] => .ok g
  | .separator :: rest =>
    match g.argument, rest with
    | some _, rest => read opts g.extra rest
    | none, .plain v :: rest => read opts { g with argument := some (some v) } rest
    | none, rest => read opts { g with argument := some none } rest
  | .plain v :: rest =>
    match g.argument, rest with
    | some _, rest => read opts g.extra rest
    | none, .separator :: rest => read opts { g with argument := some (some v) } rest
    | none, rest => read opts { g with argument := some (some v) } rest
  | word :: rest => do
    let (g, waiting) ← takeWord opts g word
    match waiting, rest with
    | none, rest => read opts g rest
    | some o, .plain v :: rest => read opts (g.put o.name v) rest
    | some _, _ => .error .misuse

def given (opts : List Opt) (arguments : List String) : Except Stop Given := do
  read opts .start (← words opts arguments)

/-- What stands before the name of a command, the name and its own arguments. -/
def splitCommand (opts : List Opt) (g : Given) :
    List (Word × String) → Except Stop (Given × Option (String × List String))
  | [] => .ok (g, none)
  | (.plain name, _) :: rest => .ok (g, some (name, rest.map (·.2)))
  | (.separator, _) :: _ => .error .misuse
  | (word, _) :: rest => do
    match ← takeWord opts g word with
    | (g, none) => splitCommand opts g rest
    | (_, some _) => .error .misuse

end FieldPlan.CommandLine
