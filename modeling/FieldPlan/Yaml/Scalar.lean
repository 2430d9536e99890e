import FieldPlan.Json.Reader
import FieldPlan.Yaml.Cursor

/-! The texts of scalars: quoted ones, blocks and plain ones. Each function reads from
a place after the opening mark and gives the text with the place after it. -/
namespace FieldPlan.Yaml

/-- Text read so far, last character first. -/
abbrev Reversed := List Char

def textOf (done : Reversed) : String := String.ofList done.reverse

namespace Scalar

/-! ### Quoted scalars -/

/-- Blank lines inside a quoted scalar; a separator of documents must not occur. -/
def quotedBreaks : Nat → Reversed → Cursor → Option (Reversed × Cursor)
  | 0, _, _ => none
  | n + 1, done, c =>
    if c.isSeparator then none
    else
      let c := (c.span isSpace).2
      match c.lineBreak? with
      | some (b, next) => quotedBreaks n (b :: done) next
      | none => some (done, c)

/-- A single line break is a blank; of several the first disappears. -/
def folded (first : Char) (breaks : Reversed) : Reversed :=
  if first ≠ '\n' then breaks ++ [first] else if breaks.isEmpty then [' '] else breaks

def quotedBlanks (c : Cursor) : Option (Reversed × Cursor) :=
  let (blanks, c) := c.span isSpace
  match c.peek, c.lineBreak? with
  | none, _ => none
  | _, none => some (blanks.reverse, c)
  | _, some (first, next) => do
    let (breaks, c) ← quotedBreaks (next.rest.length + 1) [] next
    return (folded first breaks, c)

def escapes : List (Char × Char) :=
  [('0', '\x00'), ('a', '\x07'), ('b', '\x08'), ('t', '\t'), ('\t', '\t'), ('n', '\n'),
   ('v', '\x0b'), ('f', '\x0c'), ('r', '\r'), ('e', '\x1b'), (' ', ' '), ('"', '"'),
   ('\\', '\\'), ('/', '/'), ('N', '\x85'), ('_', '\xa0'), ('L', '\u2028'), ('P', '\u2029')]

def codeLengths : List (Char × Nat) := [('x', 2), ('u', 4), ('U', 8)]

def escape (c : Cursor) : Option (Reversed × Cursor) := do
  match c.lineBreak? with
  | some (_, next) => quotedBreaks (next.rest.length + 1) [] next
  | none =>
    let mark ← c.peek
    match escapes.lookup mark, codeLengths.lookup mark with
    | some ch, _ => return ([ch], c.advance)
    | none, some n =>
      let digits := c.advance.rest.take n
      if digits.length = n then
        let code ← Json.hexValue? digits
        return ([Json.unitChar code], c.skip (n + 1))
      else none
    | none, none => none

def quoted (quote : Char) : Nat → Reversed → Cursor → Option (String × Cursor)
  | 0, _, _ => none
  | n + 1, done, c => do
    let ch ← c.peek
    if ch = quote then
      if quote = '\'' && c.peekAt 1 = some '\'' then quoted quote n ('\'' :: done) (c.skip 2)
      else return (textOf done, c.advance)
    else if isSpace ch || isBreak ch then
      let (more, c) ← quotedBlanks c
      quoted quote n (more ++ done) c
    else if quote = '"' && ch = '\\' then
      let (more, c) ← escape c.advance
      quoted quote n (more ++ done) c
    else quoted quote n (ch :: done) c.advance

/-! ### Blocks -/

inductive Chomp where
  | clip
  | strip
  | keep
  deriving DecidableEq

def chomp? : Option Char → Option Chomp
  | some '+' => some .keep
  | some '-' => some .strip
  | _ => none

def increment? (c : Option Char) : Option Nat :=
  match c with
  | some ch => if ch.isDigit then some (ch.toNat - 48) else none
  | none => none

def header (c : Cursor) : Option (Chomp × Option Nat × Cursor) :=
  let (chomp, increment, c) := match chomp? c.peek, increment? c.peek with
    | some chomp, _ => match increment? (c.peekAt 1) with
      | some n => (chomp, some n, c.skip 2)
      | none => (chomp, none, c.advance)
    | none, some n => match chomp? (c.peekAt 1) with
      | some chomp => (chomp, some n, c.skip 2)
      | none => (.clip, some n, c.advance)
    | none, none => (.clip, none, c)
  if increment = some 0 || !endsPart c.peek then none
  else c.restOfLine?.map fun c => (chomp, increment, c)

def indentTo (column : Nat) (c : Cursor) : Cursor :=
  c.skip ((c.rest.take (column - c.column)).takeWhile (· = ' ')).length

def blankLines (column : Nat) : Nat → Reversed → Cursor → Reversed × Cursor
  | 0, done, c => (done, c)
  | n + 1, done, c =>
    let c := indentTo column c
    match c.lineBreak? with
    | some (b, next) => blankLines column n (b :: done) next
    | none => (done, c)

def leadingLines : Nat → Nat → Reversed → Cursor → Nat × Reversed × Cursor
  | 0, widest, done, c => (widest, done, c)
  | n + 1, widest, done, c =>
    let c := c.skipSpaces
    let widest := max widest c.column
    match c.lineBreak? with
    | some (b, next) => leadingLines n widest (b :: done) next
    | none => (widest, done, c)

/-- The lines of a block. `breaks` are the line breaks that have been read but not
yet put to the text. -/
def lines (isFolded : Bool) (column : Nat) :
    Nat → Reversed → Reversed → Cursor → Reversed × Reversed × Reversed × Cursor
  | 0, done, breaks, c => (done, [], breaks, c)
  | n + 1, done, breaks, c =>
    if c.column = column && c.peek.isSome then
      let indented := c.peek.any isSpace
      let (text, c) := c.span fun ch => !isBreak ch
      let done := text.reverse ++ (breaks ++ done)
      let (first, c) : Reversed × Cursor := match c.lineBreak? with
        | some (b, next) => ([b], next)
        | none => ([], c)
      let (breaks, c) := blankLines column (c.rest.length + 1) [] c
      if c.column = column && c.peek.isSome then
        let joins := isFolded && first = ['\n'] && !indented && !c.peek.any isSpace
        let joint : Reversed := if joins then (if breaks.isEmpty then [' '] else []) else first
        lines isFolded column n (joint ++ done) breaks c
      else (done, first, breaks, c)
    else (done, [], breaks, c)

def block (isFolded : Bool) (indent : Int) (c : Cursor) : Option (String × Cursor) := do
  let (chomp, increment, c) ← header c
  let least := max 1 (indent + 1).toNat
  let (column, breaks, c) := match increment with
    | some n =>
      let column := least + n - 1
      let (breaks, c) := blankLines column (c.rest.length + 1) [] c
      (column, breaks, c)
    | none =>
      let (widest, breaks, c) := leadingLines (c.rest.length + 1) 0 [] c
      (max least widest, breaks, c)
  let (done, last, breaks, c) := lines isFolded column (c.rest.length + 1) [] breaks c
  let done := match chomp with
    | .strip => done
    | .clip => last ++ done
    | .keep => breaks ++ (last ++ done)
  return (textOf done, c)

/-! ### Plain scalars -/

def isFlowMark (c : Char) : Bool := c = ',' || c = '[' || c = ']' || c = '\x7b' || c = '\x7d'

def stopsPlain (inFlow : Bool) (c : Char) (next : Option Char) : Bool :=
  isSpace c || isBreak c ||
    (c = ':' && (endsWord next || (inFlow && next.any isFlowMark))) ||
    (inFlow && (c = '?' || isFlowMark c))

def plainPart (inFlow : Bool) : List Char → List Char
  | [] => []
  | c :: rest => if stopsPlain inFlow c rest.head? then [] else c :: plainPart inFlow rest

/-- Further line breaks after the first one; none before a separator of documents. -/
def plainBreaks : Nat → Reversed → Cursor → Option Reversed × Cursor
  | 0, done, c => (some done, c)
  | n + 1, done, c =>
    let c := c.skipSpaces
    match c.lineBreak? with
    | some (b, next) =>
      if next.isSeparator then (none, next) else plainBreaks n (b :: done) next
    | none => (some done, c)

/-- Blanks inside a plain scalar, and whether they reach into another line. -/
def plainBlanks (c : Cursor) : Reversed × Bool × Cursor :=
  let (blanks, c) := c.span (· = ' ')
  match c.lineBreak? with
  | none => (blanks, false, c)
  | some (first, next) =>
    if next.isSeparator then ([], true, next)
    else match plainBreaks (next.rest.length + 1) [] next with
      | (none, c) => ([], true, c)
      | (some breaks, c) => (folded first breaks, true, c)

/-- The parts of a plain scalar; the last result says whether it ended with a line. -/
def plain (inFlow : Bool) (indent : Int) :
    Nat → Reversed → Reversed → Bool → Cursor → Reversed × Bool × Cursor
  | 0, done, _, ended, c => (done, ended, c)
  | n + 1, done, blanks, ended, c =>
    let part := plainPart inFlow c.rest
    if c.peek = some '#' || part.isEmpty then (done, ended, c)
    else
      let done := part.reverse ++ (blanks ++ done)
      let (blanks, ended, c) := plainBlanks (c.skip part.length)
      if blanks.isEmpty || c.peek = some '#' || (!inFlow && c.column < indent) then
        (done, ended, c)
      else plain inFlow indent n done blanks ended c

end Scalar
end FieldPlan.Yaml
