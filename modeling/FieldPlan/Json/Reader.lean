import FieldPlan.Value

/-! Reading JSON text. A number with a fraction or an exponent is a float, any other
an integer of any size; `NaN`, `Infinity` and `-Infinity` are numbers too. A
repeated key keeps its first place and its last value. -/
namespace FieldPlan.Json

abbrev Chars := List Char

def isBlank (c : Char) : Bool := c = ' ' || c = '\t' || c = '\n' || c = '\r'

def skipBlank (input : Chars) : Chars := input.dropWhile isBlank

def hexDigit? (c : Char) : Option Nat :=
  if c.isDigit then some (c.toNat - 48)
  else if 'a' ≤ c && c ≤ 'f' then some (c.toNat - 87)
  else if 'A' ≤ c && c ≤ 'F' then some (c.toNat - 55)
  else none

def hexValue? (digits : Chars) : Option Nat :=
  digits.foldlM (fun n c => (hexDigit? c).map (16 * n + ·)) 0

def simpleEscape? : Char → Option Char
  | '"' => some '"'
  | '\\' => some '\\'
  | '/' => some '/'
  | 'b' => some '\x08'
  | 'f' => some '\x0c'
  | 'n' => some '\n'
  | 'r' => some '\r'
  | 't' => some '\t'
  | _ => none

def isHigh (unit : Nat) : Bool := 0xD800 ≤ unit && unit < 0xDC00

def isLow (unit : Nat) : Bool := 0xDC00 ≤ unit && unit < 0xE000

/-- The character of a code unit that stands alone; half of a pair has none of its own. -/
def unitChar (unit : Nat) : Char :=
  if isHigh unit || isLow unit then '\uFFFD' else Char.ofNat unit

/-- The rest of a string after its opening quote, and what follows it. The characters
read so far come in reverse. -/
def readString (done : Chars) : Chars → Option (String × Chars)
  | [] => none
  | '"' :: rest => some (String.ofList done.reverse, rest)
  | '\\' :: 'u' :: a :: b :: c :: d :: '\\' :: 'u' :: e :: f :: g :: h :: rest =>
    match hexValue? [a, b, c, d], hexValue? [e, f, g, h] with
    | some high, some low =>
      if isHigh high && isLow low then
        readString (Char.ofNat (0x10000 + (high - 0xD800) * 0x400 + (low - 0xDC00)) :: done) rest
      else readString (unitChar high :: done) ('\\' :: 'u' :: e :: f :: g :: h :: rest)
    | _, _ => none
  | '\\' :: 'u' :: a :: b :: c :: d :: rest =>
    match hexValue? [a, b, c, d] with
    | some unit => readString (unitChar unit :: done) rest
    | none => none
  | '\\' :: c :: rest =>
    match simpleEscape? c with
    | some e => readString (e :: done) rest
    | none => none
  | c :: rest => if c.toNat < 0x20 then none else readString (c :: done) rest
termination_by input => input.length

def natOf (digits : Chars) : Nat := digits.foldl (fun n c => 10 * n + (c.toNat - 48)) 0

def readFraction : Chars → Option Chars × Chars
  | '.' :: rest =>
    match rest.takeWhile Char.isDigit with
    | [] => (none, '.' :: rest)
    | digits => (some digits, rest.dropWhile Char.isDigit)
  | rest => (none, rest)

def readExponent (input : Chars) : Option Int × Chars :=
  let signed (negative : Bool) (rest : Chars) : Option Int × Chars :=
    match rest.takeWhile Char.isDigit with
    | [] => (none, input)
    | digits =>
      let n : Int := natOf digits
      (some (if negative then -n else n), rest.dropWhile Char.isDigit)
  match input with
  | c :: rest =>
    if c = 'e' || c = 'E' then
      match rest with
      | '-' :: rest => signed true rest
      | '+' :: rest => signed false rest
      | rest => signed false rest
    else (none, input)
  | [] => (none, [])

def readMagnitude (negative : Bool) (input : Chars) : Option (Value × Chars) :=
  let whole := match input with
    | '0' :: _ => ['0']
    | _ => input.takeWhile Char.isDigit
  if whole.isEmpty then none
  else
    let (fraction, rest) := readFraction (input.drop whole.length)
    let (exponent, rest) := readExponent rest
    match fraction, exponent with
    | none, none =>
      let n : Int := natOf whole
      some (.int (if negative then -n else n), rest)
    | _, _ =>
      let places := fraction.getD []
      let x := Binary64.ofDecimal (natOf (whole ++ places)) (exponent.getD 0 - places.length)
      some (.float (if negative then x.negate else x), rest)

def words : List (String × Value) :=
  [("null", .null), ("true", .bool true), ("false", .bool false), ("NaN", .float .nan),
   ("Infinity", .float .infinity), ("-Infinity", .float Binary64.infinity.negate)]

def readScalar (input : Chars) : Option (Value × Chars) :=
  match words.find? (fun word => word.1.toList.isPrefixOf input) with
  | some (word, value) => some (value, input.drop word.length)
  | none =>
    match input with
    | '-' :: rest => readMagnitude true rest
    | _ => readMagnitude false input

mutual
/-- A value and what follows it, nested to at most the given depth plus length. -/
def readValue : Nat → Chars → Option (Value × Chars)
  | 0, _ => none
  | n + 1, '[' :: rest =>
    match skipBlank rest with
    | ']' :: rest => some (.list [], rest)
    | rest => readItems n [] rest
  | n + 1, '\x7b' :: rest =>
    match skipBlank rest with
    | '\x7d' :: rest => some (.mapping [], rest)
    | rest => readMembers n [] rest
  | _ + 1, '"' :: rest => (readString [] rest).map fun (s, rest) => (.str s, rest)
  | _ + 1, input => readScalar input

def readItems : Nat → List Value → Chars → Option (Value × Chars)
  | 0, _, _ => none
  | n + 1, done, input =>
    match readValue n input with
    | none => none
    | some (item, rest) =>
      match skipBlank rest with
      | ',' :: rest => readItems n (item :: done) (skipBlank rest)
      | ']' :: rest => some (.list (item :: done).reverse, rest)
      | _ => none

def readMembers : Nat → List (Value × Value) → Chars → Option (Value × Chars)
  | 0, _, _ => none
  | n + 1, done, '"' :: input =>
    match readString [] input with
    | none => none
    | some (key, rest) =>
      match skipBlank rest with
      | ':' :: rest =>
        match readValue n (skipBlank rest) with
        | none => none
        | some (item, rest) =>
          match skipBlank rest with
          | ',' :: rest => readMembers n ((.str key, item) :: done) (skipBlank rest)
          | '\x7d' :: rest => some (.ofPairs ((.str key, item) :: done).reverse, rest)
          | _ => none
      | _ => none
  | _ + 1, _, _ => none
end

def parse? (text : String) : Option Value :=
  let input := skipBlank text.toList
  match readValue (input.length + 1) input with
  | some (value, rest) => if (skipBlank rest).isEmpty then some value else none
  | none => none

end FieldPlan.Json
