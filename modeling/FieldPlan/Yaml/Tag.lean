import FieldPlan.Text.Split
import FieldPlan.Yaml.Scalar

/-! What a scalar is. A plain text is nothing, a truth value, a number or a time if it
has the shape of one, and otherwise a text; numbers may have underscores, bases
and parts to the base of sixty. -/
namespace FieldPlan.Yaml

inductive Tag where
  | null
  | bool
  | int
  | float
  | time
  | merge
  | default
  | str
  | seq
  | map
  | other (name : String)
  deriving DecidableEq, Repr

namespace Tag

def common : List (String × Tag) :=
  [("null", .null), ("bool", .bool), ("int", .int), ("float", .float), ("timestamp", .time),
   ("merge", .merge), ("value", .default), ("str", .str), ("seq", .seq), ("map", .map)]

def ofName (name : String) : Tag :=
  ((common.find? fun entry => "tag:yaml.org,2002:" ++ entry.1 == name).map (·.2)).getD
    (.other name)

/-! ### Shapes of plain scalars -/

def nullWords : List String := ["", "~", "null", "Null", "NULL"]

def trueWords : List String := ["yes", "Yes", "YES", "true", "True", "TRUE", "on", "On", "ON"]

def falseWords : List String :=
  ["no", "No", "NO", "false", "False", "FALSE", "off", "Off", "OFF"]

def isSign (c : Char) : Bool := c = '+' || c = '-'

def unsigned : List Char → Bool × List Char
  | c :: rest => if isSign c then (true, rest) else (false, c :: rest)
  | [] => (false, [])

def isDigitOr (c : Char) : Bool := c.isDigit || c = '_'

def isBinary (c : Char) : Bool := c = '0' || c = '1' || c = '_'

def isOctal (c : Char) : Bool := ('0' ≤ c && c ≤ '7') || c = '_'

def isHex (c : Char) : Bool := (Json.hexDigit? c).isSome || c = '_'

def isNonempty (p : Char → Bool) (chars : List Char) : Bool := !chars.isEmpty && chars.all p

def isSixtieth : List Char → Bool
  | [a] => a.isDigit
  | [a, b] => '0' ≤ a && a ≤ '5' && b.isDigit
  | _ => false

def isInt (text : List Char) : Bool :=
  match (unsigned text).2 with
  | ['0'] => true
  | '0' :: 'b' :: rest => isNonempty isBinary rest
  | '0' :: 'x' :: rest => isNonempty isHex rest
  | '0' :: rest => isNonempty isOctal rest
  | c :: rest =>
    c.isDigit && match Text.split ':' rest with
      | first :: others => first.all isDigitOr && others.all isSixtieth
      | [] => false
  | [] => false

def isExponent : List Char → Bool
  | [] => true
  | e :: sign :: digits => (e = 'e' || e = 'E') && isSign sign && isNonempty Char.isDigit digits
  | _ => false

def specialFloats : List String := [".inf", ".Inf", ".INF"]

def nanFloats : List String := [".nan", ".NaN", ".NAN"]

def isFloat (text : List Char) : Bool :=
  let (signed, body) := unsigned text
  let whole := body.takeWhile (· ≠ '.')
  match body.dropWhile (· ≠ '.') with
  | [] => false
  | _ :: fraction =>
    specialFloats.contains (String.ofList body) ||
    (!signed && nanFloats.contains (String.ofList body)) ||
    match whole, Text.split ':' whole with
    | [], _ => !signed && fraction.head?.any Char.isDigit &&
        isExponent (fraction.dropWhile isDigitOr)
    | c :: _, [first] =>
      c.isDigit && first.all isDigitOr && isExponent (fraction.dropWhile isDigitOr)
    | c :: _, first :: others =>
      c.isDigit && first.all isDigitOr && others.all isSixtieth && fraction.all isDigitOr
    | _, [] => false

def digits (least most : Nat) (text : List Char) : Option (List Char) :=
  let run := (text.take most).takeWhile Char.isDigit
  if run.length < least then none else some (text.drop run.length)

def char (c : Char) : List Char → Option (List Char)
  | d :: rest => if c = d then some rest else none
  | [] => none

def isZone (text : List Char) : Bool :=
  match text.dropWhile isSpace with
  | [] => text.isEmpty
  | ['Z'] => true
  | c :: rest =>
    isSign c && match digits 1 2 rest with
      | some [] => true
      | some rest => ((char ':' rest).bind (digits 2 2)) == some []
      | none => false

def isClock (text : List Char) : Bool :=
  let rest := do
    let rest ← char ':' (← digits 1 2 text)
    digits 2 2 (← char ':' (← digits 2 2 rest))
  match rest with
  | some ('.' :: rest) => isZone (rest.dropWhile Char.isDigit)
  | some rest => isZone rest
  | none => false

def isTime (text : List Char) : Bool :=
  let plainDate := do
    let rest ← char '-' (← digits 4 4 text)
    digits 2 2 (← char '-' (← digits 2 2 rest))
  let looseDate := do
    let rest ← char '-' (← digits 4 4 text)
    digits 1 2 (← char '-' (← digits 1 2 rest))
  plainDate == some [] || match looseDate with
    | some ('T' :: rest) => isClock rest
    | some ('t' :: rest) => isClock rest
    | some (c :: rest) => isSpace c && isClock (rest.dropWhile isSpace)
    | _ => false

def ofPlain (text : String) : Tag :=
  if nullWords.contains text then .null
  else if trueWords.contains text || falseWords.contains text then .bool
  else if isInt text.toList then .int
  else if isFloat text.toList then .float
  else if isTime text.toList then .time
  else if text == "<<" then .merge
  else if text == "=" then .default
  else .str

/-! ### Values of scalars -/

def inBase (base : Nat) (chars : List Char) : Option Nat :=
  if chars.isEmpty then none
  else chars.foldlM (fun n c => do
    let d ← Json.hexDigit? c
    if d < base then some (base * n + d) else none) 0

def magnitude? (body : List Char) : Option Nat :=
  match body with
  | ['0'] => some 0
  | '0' :: 'b' :: rest => inBase 2 rest
  | '0' :: 'x' :: rest => inBase 16 rest
  | '0' :: rest => inBase 8 rest
  | body => (Text.split ':' body).foldlM (fun n part => (inBase 10 part).map (60 * n + ·)) 0

def isMinus (text : List Char) : Bool := text.head? = some '-'

def withoutUnderscores (text : String) : List Char := text.toList.filter (· ≠ '_')

def int? (text : String) : Option Int := do
  let chars := withoutUnderscores text
  let n ← magnitude? (unsigned chars).2
  return if isMinus chars then -(n : Int) else n

def decimal? (body : List Char) : Option Binary64 :=
  let (body, power) := match body with
    | '.' :: _ => ('0' :: body, 0)
    | _ => (body, 0)
  let digits := body.takeWhile Char.isDigit
  let rest := body.dropWhile Char.isDigit
  let (fraction, rest) := match rest with
    | '.' :: rest => (rest.takeWhile Char.isDigit, rest.dropWhile Char.isDigit)
    | rest => ([], rest)
  match digits.isEmpty, Json.readExponent rest with
  | false, (exponent, []) => some (.ofDecimal (Json.natOf (digits ++ fraction))
      (exponent.getD power - fraction.length))
  | _, _ => none

/-- Parts to the base of sixty, the last one with a fraction. -/
def sixtieths? (parts : List (List Char)) : Option Binary64 := do
  let values ← parts.mapM decimal?
  let step (sum : Float × Float) (x : Binary64) : Float × Float :=
    (sum.1 + x.toFloat * sum.2, sum.2 * 60)
  return .ofFloat (values.reverse.foldl step (0, 1)).1

def float? (text : String) : Option Binary64 := do
  let chars := (withoutUnderscores text).map Char.toLower
  let body := (unsigned chars).2
  let x ←
    if body == ".inf".toList then some Binary64.infinity
    else if body == ".nan".toList then some Binary64.nan
    else match Text.split ':' body with
      | [body] => decimal? body
      | parts => sixtieths? parts
  return if isMinus chars then x.negate else x

def bool? (text : String) : Option Bool :=
  let word := String.ofList (text.toList.map Char.toLower)
  if trueWords.contains word then some true
  else if falseWords.contains word then some false
  else none

/-! ### Times -/

def number? (least most : Nat) (text : List Char) : Option (Nat × List Char) :=
  (digits least most text).map fun rest =>
    (Json.natOf (text.take (text.length - rest.length)), rest)

/-- The parts of a time as they are spelled, be there such a time or not. -/
structure Spelled where
  year : Nat
  month : Nat
  day : Nat
  clock : Option (Nat × Nat × Nat × Nat)
  /-- Minutes ahead of universal time. -/
  zone : Option Int

def microsOf (fraction : List Char) : Nat :=
  let run := fraction.take 6
  Json.natOf run * Nat.pow 10 (6 - run.length)

def zone? (text : List Char) : Option (Option Int) :=
  match text.dropWhile isSpace with
  | [] => if text.isEmpty then some none else none
  | ['Z'] => some (some 0)
  | c :: rest =>
    if !isSign c then none
    else do
      let (hours, rest) ← number? 1 2 rest
      let minutes ← match rest with
        | [] => some 0
        | rest => match ← number? 2 2 (← char ':' rest) with
          | (minutes, []) => some minutes
          | _ => none
      let ahead : Int := 60 * hours + minutes
      return some (if c = '-' then -ahead else ahead)

def clock? (text : List Char) : Option ((Nat × Nat × Nat × Nat) × Option Int) := do
  let (hour, rest) ← number? 1 2 text
  let (minute, rest) ← number? 2 2 (← char ':' rest)
  let (second, rest) ← number? 2 2 (← char ':' rest)
  match rest with
  | '.' :: rest =>
    return ((hour, minute, second, microsOf (rest.takeWhile Char.isDigit)),
      ← zone? (rest.dropWhile Char.isDigit))
  | rest => return ((hour, minute, second, 0), ← zone? rest)

def spelled? (text : List Char) : Option Spelled := do
  let (year, rest) ← number? 4 4 text
  let (month, rest) ← number? 1 2 (← char '-' rest)
  let (day, rest) ← number? 1 2 (← char '-' rest)
  let onDay (text : List Char) : Option Spelled :=
    (clock? text).map fun (clock, zone) => ⟨year, month, day, some clock, zone⟩
  match rest with
  | [] => return ⟨year, month, day, none, none⟩
  | 'T' :: rest => onDay rest
  | 't' :: rest => onDay rest
  | c :: rest => if isSpace c then onDay (rest.dropWhile isSpace) else none

/-- The part of a time that has no place in the calendar or on the clock. -/
inductive OutOfRange where
  | year (n : Nat)
  | month
  | day
  | hour
  | minute
  | second
  | zone (ahead : Int)
  deriving DecidableEq, Repr

def dayOf (year month day : Nat) : Except OutOfRange Day :=
  if years : 1 ≤ year ∧ year ≤ 9999 then
    if months : 1 ≤ month ∧ month ≤ 12 then
      if days : 1 ≤ day ∧ day ≤ daysIn year month then .ok ⟨year, month, day, years, months, days⟩
      else .error .day
    else .error .month
  else .error (.year year)

def clockOf (hour minute second micro : Nat) : Except OutOfRange Clock :=
  if hours : hour < 24 then
    if minutes : minute < 60 then
      if seconds : second < 60 ∧ micro < 1000000 then
        .ok ⟨hour, minute, second, micro, hours, minutes, seconds⟩
      else .error .second
    else .error .minute
  else .error .hour

def zoneOf (ahead : Int) : Except OutOfRange Zone :=
  if inRange : -1440 < ahead ∧ ahead < 1440 then .ok ⟨ahead, inRange⟩ else .error (.zone ahead)

/-- The moment that is spelled; its zone is looked at first. -/
def Spelled.moment (s : Spelled) : Except OutOfRange Moment :=
  match s.clock with
  | none => do return .day (← dayOf s.year s.month s.day)
  | some (hour, minute, second, micro) => do
    let zone ← s.zone.mapM zoneOf
    let day ← dayOf s.year s.month s.day
    let clock ← clockOf hour minute second micro
    match zone with
    | none => return .unzoned day clock
    | some zone => return .zoned day clock zone

def moment? (text : String) : Option Moment :=
  (spelled? text.toList).bind fun s => s.moment.toOption

def value? (tag : Tag) (text : String) : Option Value :=
  match tag with
  | .null => some .null
  | .bool => (bool? text).map .bool
  | .int => (int? text).map .int
  | .float => (float? text).map .float
  | .time => (moment? text).map .stamp
  | .str => some (.str text)
  | _ => none

end Tag
end FieldPlan.Yaml
