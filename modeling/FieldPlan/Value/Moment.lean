/-! Days of the calendar, and times on them. A time may tell how far its clock is ahead of
universal time; one that does not cannot be compared with one that does. -/
namespace FieldPlan

def isLeap (year : Nat) : Bool := year % 4 == 0 && (year % 100 != 0 || year % 400 == 0)

def daysIn (year month : Nat) : Nat :=
  if month = 2 then if isLeap year then 29 else 28
  else if month ∈ [4, 6, 9, 11] then 30 else 31

structure Day where
  year : Nat
  month : Nat
  day : Nat
  inRange : (1 ≤ year ∧ year ≤ 9999) ∧ (1 ≤ month ∧ month ≤ 12) ∧
    1 ≤ day ∧ day ≤ daysIn year month
  deriving DecidableEq, Repr

structure Clock where
  hour : Nat
  minute : Nat
  second : Nat
  micro : Nat
  inRange : hour < 24 ∧ minute < 60 ∧ second < 60 ∧ micro < 1000000
  deriving DecidableEq, Repr

/-- How many minutes a clock is ahead of universal time: less than a day, or less than one
behind. -/
structure Zone where
  ahead : Int
  inRange : -1440 < ahead ∧ ahead < 1440
  deriving DecidableEq, Repr

inductive Moment where
  | day (d : Day)
  | unzoned (d : Day) (t : Clock)
  | zoned (d : Day) (t : Clock) (z : Zone)
  deriving DecidableEq, Repr

namespace Moment

inductive Kind where
  | day
  | unzoned
  | zoned
  deriving DecidableEq, Repr

def kind : Moment → Kind
  | .day _ => .day
  | .unzoned _ _ => .unzoned
  | .zoned _ _ _ => .zoned

end Moment

/-! ### Order -/

def Day.number (d : Day) : Nat :=
  let before := d.year - 1
  365 * before + before / 4 - before / 100 + before / 400 +
    (List.range' 1 (d.month - 1)).foldl (fun days month => days + daysIn d.year month) d.day

def Clock.sinceMidnight (t : Clock) : Nat :=
  ((60 * t.hour + t.minute) * 60 + t.second) * 1000000 + t.micro

namespace Moment

def instant : Moment → Int
  | .day d => d.number
  | .unzoned d t => d.number * 86400000000 + t.sinceMidnight
  | .zoned d t z => d.number * 86400000000 + t.sinceMidnight - z.ahead * 60000000

/-- Zoned moments are the same wherever their clocks are. -/
def same : Moment → Moment → Bool
  | a@(.zoned _ _ _), b@(.zoned _ _ _) => a.instant == b.instant
  | a, b => a == b

end Moment

/-! ### Texts -/

def padded (width n : Nat) : String :=
  let digits := (toString n).toList
  String.ofList (List.replicate (width - digits.length) '0' ++ digits)

def Day.text (d : Day) : String :=
  padded 4 d.year ++ "-" ++ padded 2 d.month ++ "-" ++ padded 2 d.day

def Clock.text (t : Clock) : String :=
  padded 2 t.hour ++ ":" ++ padded 2 t.minute ++ ":" ++ padded 2 t.second ++
    if t.micro = 0 then "" else "." ++ padded 6 t.micro

def Zone.text (z : Zone) : String :=
  (if z.ahead < 0 then "-" else "+") ++ padded 2 (z.ahead.natAbs / 60) ++ ":" ++
    padded 2 (z.ahead.natAbs % 60)

def Moment.text : Moment → String
  | .day d => d.text
  | .unzoned d t => d.text ++ " " ++ t.text
  | .zoned d t z => d.text ++ " " ++ t.text ++ z.text

def Day.parts (d : Day) : List Nat := [d.year, d.month, d.day]

/-- Seconds are left out if there are none, and so are their parts. -/
def Clock.parts (t : Clock) : List Nat :=
  [t.hour, t.minute] ++
    if t.micro ≠ 0 then [t.second, t.micro] else if t.second ≠ 0 then [t.second] else []

/-- A span of seconds, with the days taken off if it is negative. -/
def Zone.literal (z : Zone) : String :=
  if z.ahead = 0 then "datetime.timezone.utc"
  else
    "datetime.timezone(datetime.timedelta(" ++
      (if z.ahead < 0 then "days=-1, seconds=" ++ toString (86400 + 60 * z.ahead)
      else "seconds=" ++ toString (60 * z.ahead)) ++ "))"

def Moment.literal : Moment → String
  | .day d => "datetime.date(" ++ listed d.parts ++ ")"
  | .unzoned d t => "datetime.datetime(" ++ listed (d.parts ++ t.parts) ++ ")"
  | .zoned d t z =>
    "datetime.datetime(" ++ listed (d.parts ++ t.parts) ++ ", tzinfo=" ++ z.literal ++ ")"
where
  listed (parts : List Nat) : String := ", ".intercalate (parts.map toString)

end FieldPlan
