import FieldPlan.Yaml.Tag
import FieldPlan.Yaml.Token

/-! Documents as trees. An alias stands for the whole node that its anchor names. -/
namespace FieldPlan.Yaml

inductive Node where
  | scalar (tag : Tag) (text : String)
  | sequence (tag : Tag) (items : List Node)
  | mapping (tag : Tag) (entries : List (Node × Node))

namespace Node

instance : Inhabited Node := ⟨.scalar .null ""⟩

def nothing : Node := .scalar .null ""

/-- What is left to read, with the anchors so far; one has no node yet inside itself. -/
structure Input where
  tokens : List Token
  anchors : List (String × Option Node)
  handles : List (String × String)

abbrev Reader := StateT Input Option

def peek : Reader Token := fun s =>
  match s.tokens with
  | t :: _ => some (t, s)
  | [] => none

def advance : Reader Unit := fun s => some ((), { s with tokens := s.tokens.drop 1 })

def fail {α : Type} : Reader α := fun _ => none

def took (t : Token) : Reader Bool := do
  if (← peek) == t then
    advance
    return true
  else return false

def expect (t : Token) : Reader Unit := do
  if ← took t then return () else fail

def anchor? : Reader (Option String) := do
  match ← peek with
  | .anchor name =>
    advance
    return some name
  | _ => return none

def tag? : Reader (Option String) := do
  match ← peek with
  | .tag none suffix =>
    advance
    return some suffix
  | .tag (some handle) suffix =>
    advance
    match (← get).handles.lookup handle with
    | some meaning => return some (meaning ++ suffix)
    | none => fail
  | _ => return none

def properties : Reader (Option String × Option String) := do
  match ← anchor? with
  | some name => return (some name, ← tag?)
  | none =>
    let tag ← tag?
    return (← anchor?, tag)

def bindAnchor (name : Option String) (node : Option Node) : Reader Unit :=
  modify fun s => match name with
    | some name => { s with anchors := (name, node) :: s.anchors }
    | none => s

def openAnchor (name : Option String) : Reader Unit := do
  let anchors := (← get).anchors
  match name.bind fun name => anchors.lookup name with
  | some _ => fail
  | none => bindAnchor name none

/-- A tag of its own, unless it is the mark that asks for the usual one. -/
def tagOr (tag : Option String) (usual : Tag) : Tag :=
  match tag with
  | none => usual
  | some name => if name == "!" then usual else .ofName name

def scalarNode (tag : Option String) (text : String) (isPlain : Bool) : Node :=
  let usual := if isPlain || tag == some "!" then Tag.ofPlain text else .str
  .scalar (tagOr tag usual) text

inductive Place where
  | flow
  | block
  /-- In a block, where a sequence need not be indented. -/
  | value
  deriving DecidableEq

mutual
def node : Nat → Place → Reader Node
  | 0, _ => fail
  | n + 1, place => do
    match ← peek with
    | .alias name =>
      advance
      match (← get).anchors.lookup name with
      | some (some aliased) => return aliased
      | _ => fail
    | _ =>
      let (name, tag) ← properties
      openAnchor name
      let inner ← content n place (name.isSome || tag.isSome) tag
      bindAnchor name (some inner)
      return inner

def content : Nat → Place → Bool → Option String → Reader Node
  | 0, _, _, _ => fail
  | n + 1, place, hasProperties, tag => do
    match ← peek with
    | .blockEntry =>
      if place = .value then return .sequence (tagOr tag .seq) (← looseItems n)
      else if hasProperties then return scalarNode tag "" true else fail
    | .scalar text isPlain =>
      advance
      return scalarNode tag text isPlain
    | .flowSequence =>
      advance
      return .sequence (tagOr tag .seq) (← flowItems n true)
    | .flowMapping =>
      advance
      return .mapping (tagOr tag .map) (← flowEntries n true)
    | .blockSequence =>
      if place = .flow then fail
      else
        advance
        return .sequence (tagOr tag .seq) (← blockItems n)
    | .blockMapping =>
      if place = .flow then fail
      else
        advance
        return .mapping (tagOr tag .map) (← blockEntries n)
    | _ => if hasProperties then return scalarNode tag "" true else fail

def nodeUnless : Nat → Place → List Token → Reader Node
  | 0, _, _ => fail
  | n + 1, place, stops => do
    if stops.contains (← peek) then return nothing else node n place

def blockItems : Nat → Reader (List Node)
  | 0 => fail
  | n + 1 => do
    if ← took .blockEntry then
      let item ← nodeUnless n .block [.blockEntry, .blockEnd]
      return item :: (← blockItems n)
    else
      expect .blockEnd
      return []

/-- The items of a sequence at the indentation of its key. -/
def looseItems : Nat → Reader (List Node)
  | 0 => fail
  | n + 1 => do
    if ← took .blockEntry then
      let item ← nodeUnless n .block [.blockEntry, .key, .value, .blockEnd]
      return item :: (← looseItems n)
    else return []

def valueUnless : Nat → Place → List Token → Reader Node
  | 0, _, _ => fail
  | n + 1, place, stops => do
    if ← took .value then nodeUnless n place stops else return nothing

def blockEntries : Nat → Reader (List (Node × Node))
  | 0 => fail
  | n + 1 => do
    if ← took .key then
      let key ← nodeUnless n .value [.key, .value, .blockEnd]
      let value ← valueUnless n .value [.key, .value, .blockEnd]
      return (key, value) :: (← blockEntries n)
    else
      expect .blockEnd
      return []

/-- The items of a flow sequence; a key makes an item a mapping of one entry. -/
def flowItems : Nat → Bool → Reader (List Node)
  | 0, _ => fail
  | n + 1, isFirst => do
    if ← took .flowSequenceEnd then return []
    else
      if !isFirst then expect .flowEntry
      if ← took .flowSequenceEnd then return []
      else if ← took .key then
        let key ← nodeUnless n .flow [.value, .flowEntry, .flowSequenceEnd]
        let value ← valueUnless n .flow [.flowEntry, .flowSequenceEnd]
        return .mapping .map [(key, value)] :: (← flowItems n false)
      else
        let item ← node n .flow
        return item :: (← flowItems n false)

def flowEntries : Nat → Bool → Reader (List (Node × Node))
  | 0, _ => fail
  | n + 1, isFirst => do
    if ← took .flowMappingEnd then return []
    else
      if !isFirst then expect .flowEntry
      if ← took .flowMappingEnd then return []
      else if ← took .key then
        let key ← nodeUnless n .flow [.value, .flowEntry, .flowMappingEnd]
        let value ← valueUnless n .flow [.flowEntry, .flowMappingEnd]
        return (key, value) :: (← flowEntries n false)
      else
        let key ← node n .flow
        return (key, nothing) :: (← flowEntries n false)
end

/-! ### Documents -/

def commonHandles : List (String × String) := [("!", "!"), ("!!", "tag:yaml.org,2002:")]

/-- Directives before a document; a version and each handle may be given once. -/
def directives : Nat → Bool → List (String × String) → Reader (List (String × String))
  | 0, _, _ => fail
  | n + 1, hasVersion, handles => do
    match ← peek with
    | .version major =>
      advance
      if hasVersion || major != 1 then fail else directives n true handles
    | .handle name meaning =>
      advance
      if (handles.lookup name).isSome then fail
      else directives n hasVersion ((name, meaning) :: handles)
    | .directive =>
      advance
      directives n hasVersion handles
    | _ => return handles ++ commonHandles

def startsDocument : Token → Bool
  | .version _ => true
  | .handle _ _ => true
  | .directive => true
  | .documentStart => true
  | .streamEnd => true
  | _ => false

def finish : Nat → Reader Unit
  | 0 => fail
  | n + 1 => do
    if ← took .documentEnd then finish n else expect .streamEnd

def document (n : Nat) : Reader Node := do
  if !startsDocument (← peek) then
    let root ← node n .block
    finish n
    return root
  else if ← took .streamEnd then return nothing
  else
    let handles ← directives n false []
    modify fun s => { s with handles := handles }
    expect .documentStart
    let next ← peek
    let root ← if startsDocument next || next == .documentEnd then pure nothing else node n .block
    finish n
    return root

/-- The tree of a text, or none if the text is no single document. Between two
tokens at most three functions call each other. -/
def parse? (text : String) : Option Node := do
  let tokens ← tokens? text
  let (root, _) ← (document (4 * tokens.length + 8)).run ⟨tokens, [], commonHandles⟩
  return root

end Node
end FieldPlan.Yaml
