import FieldPlan.Yaml.Scalar

/-! Documents as tokens. Indentation opens and closes blocks. A key without a mark of
its own is only known at its colon, so the places where one may have begun are
kept, one for each level of flow, and the mark is put in afterwards. -/
namespace FieldPlan.Yaml

inductive Token where
  | version (major : Nat)
  | handle (name meaning : String)
  | directive
  | documentStart
  | documentEnd
  | blockSequence
  | blockMapping
  | blockEnd
  | flowSequence
  | flowSequenceEnd
  | flowMapping
  | flowMappingEnd
  | blockEntry
  | flowEntry
  | key
  | value
  | alias (name : String)
  | anchor (name : String)
  | tag (handle : Option String) (suffix : String)
  | scalar (text : String) (isPlain : Bool)
  | streamEnd
  deriving DecidableEq, Repr

structure PossibleKey where
  level : Nat
  place : Nat
  /-- It has to be a key: it is the first thing at the indentation of its block. -/
  isRequired : Bool
  index : Nat
  line : Nat
  column : Nat

structure Scan where
  cursor : Cursor
  tokens : Array Token
  flow : Nat
  indent : Int
  outer : List Int
  keyAllowed : Bool
  keys : List PossibleKey

namespace Scan

def start (text : String) : Scan := ⟨.start text, #[], 0, -1, [], true, []⟩

def push (s : Scan) (t : Token) : Scan := { s with tokens := s.tokens.push t }

def inFlow (s : Scan) : Bool := s.flow != 0

def column (s : Scan) : Int := s.cursor.column

def take (s : Scan) (n : Nat) (t : Token) : Scan :=
  { s.push t with cursor := s.cursor.skip n }

def allowKey (s : Scan) (allowed : Bool) : Scan := { s with keyAllowed := allowed }

/-! ### Blocks and keys -/

def unwindFrom (column indent : Int) : List Int → Array Token → Int × List Int × Array Token
  | [], tokens => (indent, [], tokens)
  | previous :: outer, tokens =>
    if column < indent then unwindFrom column previous outer (tokens.push .blockEnd)
    else (indent, previous :: outer, tokens)

/-- Closes the blocks that are indented further than `column`. -/
def unwind (s : Scan) (column : Int) : Scan :=
  if s.inFlow then s
  else
    let (indent, outer, tokens) := unwindFrom column s.indent s.outer s.tokens
    { s with indent := indent, outer := outer, tokens := tokens }

def openBlock (s : Scan) (column : Int) (place : Nat) (t : Token) : Scan :=
  if s.indent < column then
    { s with indent := column, outer := s.indent :: s.outer,
             tokens := s.tokens.insertIdxIfInBounds place t }
  else s

/-- Opens a block here unless in a flow collection; `t` must be able to begin one. -/
def openHere (s : Scan) (t : Token) : Option Scan :=
  if s.inFlow then some s
  else if s.keyAllowed then some (s.openBlock s.column s.tokens.size t)
  else none

/-- Forgets the places on other lines or too far behind. -/
def dropStale (s : Scan) : Option Scan :=
  let isStale (k : PossibleKey) : Bool :=
    k.line != s.cursor.line || 1024 < s.cursor.index - k.index
  if s.keys.any fun k => isStale k && k.isRequired then none
  else some { s with keys := s.keys.filter fun k => !isStale k }

def dropKey (s : Scan) : Option Scan :=
  if s.keys.any fun k => k.level == s.flow && k.isRequired then none
  else some { s with keys := s.keys.filter fun k => k.level != s.flow }

/-- Keeps this place, where a key may begin. -/
def saveKey (s : Scan) : Option Scan :=
  if s.keyAllowed then do
    let s ← s.dropKey
    let place : PossibleKey :=
      ⟨s.flow, s.tokens.size, !s.inFlow && s.indent == s.column, s.cursor.index,
        s.cursor.line, s.cursor.column⟩
    return { s with keys := place :: s.keys }
  else some s

/-! ### Directives and properties -/

def number? (c : Cursor) : Option (Nat × Cursor) :=
  match c.span Char.isDigit with
  | ([], _) => none
  | (digits, c) => some (Json.natOf digits, c)

def isUriChar (c : Char) : Bool := c.isAlphanum || "-;/?:@&=+$,_.!~*'()[]%".toList.contains c

/-- The bytes of escapes, two hexadecimal digits each, as text. -/
def uriBytes : Nat → ByteArray → Cursor → Option (ByteArray × Cursor)
  | 0, bytes, c => some (bytes, c)
  | n + 1, bytes, c =>
    match c.rest with
    | '%' :: a :: b :: _ => do
      let byte ← Json.hexValue? [a, b]
      uriBytes n (bytes.push byte.toUInt8) (c.skip 3)
    | '%' :: _ => none
    | _ => some (bytes, c)

def uriFrom : Nat → Reversed → Cursor → Option (Reversed × Cursor)
  | 0, done, c => some (done, c)
  | n + 1, done, c =>
    match c.peek with
    | some '%' => do
      let (bytes, c) ← uriBytes (c.rest.length + 1) .empty c
      let text ← String.fromUTF8? bytes
      uriFrom n (text.toList.reverse ++ done) c
    | some ch => if isUriChar ch then uriFrom n (ch :: done) c.advance else some (done, c)
    | none => some (done, c)

def uri? (c : Cursor) : Option (String × Cursor) := do
  let (done, c) ← uriFrom (c.rest.length + 1) [] c
  if done.isEmpty then none else return (textOf done, c)

def handle? (c : Cursor) : Option (String × Cursor) :=
  if c.peek != some '!' then none
  else if c.peekAt 1 = some ' ' then some ("!", c.advance)
  else
    let (name, after) := c.advance.span isNameChar
    if after.peek = some '!' then
      some (String.ofList ('!' :: name ++ ['!']), after.advance)
    else none

def name? (c : Cursor) : Option (String × Cursor) :=
  match c.span isNameChar with
  | ([], _) => none
  | (name, c) => some (String.ofList name, c)

def directive? (c : Cursor) : Option (Token × Cursor) := do
  let (name, c) ← name? c.advance
  if !endsPart c.peek then none
  else if name == "YAML" then
    let (major, c) ← number? c.skipSpaces
    if c.peek != some '.' then none
    else
      let (_, c) ← number? c.advance
      if endsPart c.peek then return (.version major, ← c.restOfLine?) else none
  else if name == "TAG" then
    let (handle, c) ← handle? c.skipSpaces
    if c.peek != some ' ' then none
    else
      let (meaning, c) ← uri? c.skipSpaces
      if endsPart c.peek then return (.handle handle meaning, ← c.restOfLine?) else none
  else
    let c := (c.span fun ch => !isBreak ch).2
    return (.directive, ← c.restOfLine?)

def endsAnchor (c : Option Char) : Bool :=
  endsWord c || c.any fun ch => "?:,]%@`\x7d".toList.contains ch

def anchorName? (c : Cursor) : Option (String × Cursor) := do
  let (name, c) ← name? c.advance
  if endsAnchor c.peek then return (name, c) else none

def hasHandle (c : Cursor) : Bool :=
  (c.rest.takeWhile fun ch => !(ch = ' ' || isBreak ch)).contains '!'

def tag? (c : Cursor) : Option (Token × Cursor) := do
  let (tag, c) ←
    if c.peekAt 1 = some '<' then do
      let (suffix, c) ← uri? (c.skip 2)
      if c.peek = some '>' then some (Token.tag none suffix, c.advance) else none
    else if endsWord (c.peekAt 1) then some (Token.tag none "!", c.advance)
    else if hasHandle c.advance then do
      let (handle, c) ← handle? c
      let (suffix, c) ← uri? c
      some (Token.tag (some handle) suffix, c)
    else do
      let (suffix, c) ← uri? c.advance
      some (Token.tag (some "!") suffix, c)
  if endsPart c.peek then return (tag, c) else none

/-! ### One token -/

/-- Past blanks, comments and line breaks; a line break outside of flow lets a key begin. -/
def toNext : Nat → Scan → Scan
  | 0, s => s
  | n + 1, s =>
    let c := s.cursor.skipSpaces.skipComment
    match c.lineBreak? with
    | some (_, next) =>
      toNext n { s with cursor := next, keyAllowed := s.keyAllowed || !s.inFlow }
    | none => { s with cursor := c }

def keyable (s : Scan) (read : Cursor → Option (Token × Cursor)) : Option Scan := do
  let s ← s.saveKey
  let (t, c) ← read s.cursor
  return { (s.push t).allowKey false with cursor := c }

def marker (s : Scan) (n : Nat) (t : Token) : Option Scan := do
  return ((← (s.unwind (-1)).dropKey).allowKey false).take n t

def flowStart (s : Scan) (t : Token) : Option Scan := do
  let s ← s.saveKey
  return { (s.take 1 t).allowKey true with flow := s.flow + 1 }

def flowEnd (s : Scan) (t : Token) : Option Scan := do
  let s ← s.dropKey
  return { (s.take 1 t).allowKey false with flow := s.flow - 1 }

def blockEntry (s : Scan) : Option Scan := do
  let s ← s.openHere .blockSequence
  return ((← s.dropKey).allowKey true).take 1 .blockEntry

def key (s : Scan) : Option Scan := do
  let s ← s.openHere .blockMapping
  return ((← s.dropKey).allowKey (!s.inFlow)).take 1 .key

/-- A colon: the mark of a key is put in where the key has begun, if one has. -/
def value (s : Scan) : Option Scan :=
  match s.keys.find? (·.level == s.flow) with
  | some k =>
    let s := { s with keys := s.keys.filter (·.level != s.flow),
                      tokens := s.tokens.insertIdxIfInBounds k.place .key }
    let s := if s.inFlow then s else s.openBlock k.column k.place .blockMapping
    some ((s.allowKey false).take 1 .value)
  | none => do
    let s ← s.openHere .blockMapping
    return ((← s.dropKey).allowKey (!s.inFlow)).take 1 .value

def plainScalar (s : Scan) : Option Scan := do
  let s ← s.saveKey
  let (done, ended, c) :=
    Scalar.plain s.inFlow (s.indent + 1) (s.cursor.rest.length + 1) [] [] false s.cursor
  return { (s.push (.scalar (textOf done) true)).allowKey ended with cursor := c }

def blockScalar (s : Scan) (isFolded : Bool) : Option Scan := do
  let s ← (s.allowKey true).dropKey
  let (text, c) ← Scalar.block isFolded s.indent s.cursor.advance
  return { s.push (.scalar text false) with cursor := c }

def quotedScalar (s : Scan) (quote : Char) : Option Scan :=
  s.keyable fun c => do
    let (text, c) ← Scalar.quoted quote (c.rest.length + 1) [] c.advance
    return (.scalar text false, c)

/-- Marks that no plain scalar begins with. -/
def indicators : List Char := "-?:,[]#&*!|>'\"%@`\x7b\x7d".toList

def beginsPlain (s : Scan) (c : Char) : Bool :=
  !(isSpace c || isBreak c || indicators.contains c) ||
    (!endsWord (s.cursor.peekAt 1) && (c = '-' || (!s.inFlow && (c = '?' || c = ':'))))

def token (s : Scan) (c : Char) : Option Scan :=
  let endsMark := endsWord (s.cursor.peekAt 1)
  let atStart := s.cursor.column == 0
  if c = '%' && atStart then do
    let s ← (s.unwind (-1)).dropKey
    let (t, next) ← directive? s.cursor
    return { (s.push t).allowKey false with cursor := next }
  else if atStart && s.cursor.isMarker '-' then s.marker 3 .documentStart
  else if atStart && s.cursor.isMarker '.' then s.marker 3 .documentEnd
  else if c = '[' then s.flowStart .flowSequence
  else if c = '\x7b' then s.flowStart .flowMapping
  else if c = ']' then s.flowEnd .flowSequenceEnd
  else if c = '\x7d' then s.flowEnd .flowMappingEnd
  else if c = ',' then do return (← (s.allowKey true).dropKey).take 1 .flowEntry
  else if c = '-' && endsMark then s.blockEntry
  else if c = '?' && (s.inFlow || endsMark) then s.key
  else if c = ':' && (s.inFlow || endsMark) then s.value
  else if c = '*' then s.keyable fun c => (anchorName? c).map fun r => (.alias r.1, r.2)
  else if c = '&' then s.keyable fun c => (anchorName? c).map fun r => (.anchor r.1, r.2)
  else if c = '!' then s.keyable tag?
  else if c = '|' && !s.inFlow then s.blockScalar false
  else if c = '>' && !s.inFlow then s.blockScalar true
  else if c = '\'' then s.quotedScalar '\''
  else if c = '"' then s.quotedScalar '"'
  else if s.beginsPlain c then s.plainScalar
  else none

/-- All tokens. Every one but the last takes a character. -/
def run : Nat → Scan → Option (Array Token)
  | 0, _ => none
  | n + 1, s => do
    let s ← (toNext (s.cursor.rest.length + 1) s).dropStale
    let s := s.unwind s.column
    match s.cursor.peek with
    | none =>
      let s ← (s.unwind (-1)).dropKey
      return s.tokens.push .streamEnd
    | some c => run n (← s.token c)

end Scan

def tokens? (text : String) : Option (List Token) :=
  if text.toList.all isAllowed then
    let chars := match text.toList with
      | '\uFEFF' :: rest => rest
      | chars => chars
    (Scan.run (chars.length + 1) { Scan.start text with cursor := ⟨chars, 0, 0, 0⟩ }).map
      Array.toList
  else none

end FieldPlan.Yaml
