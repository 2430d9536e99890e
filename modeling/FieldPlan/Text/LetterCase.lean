import FieldPlan.Text.Ranges
import FieldPlan.Text.CaseTable

/-! Upper case of a character and lower case of a text, for all of Unicode. A
character may become several (ß gives SS, İ gives an i and a dot above), and
the form of a lower-case sigma depends on its place in the word. -/
namespace FieldPlan.Text

def Shift.target? (shift : Shift) (n : Nat) : Option Nat :=
  if shift.first ≤ n && n ≤ shift.last && (n - shift.first) % shift.step == 0 then
    some (n + shift.offset).toNat
  else none

def shiftChar (table : List Shift) (c : Char) : Char :=
  match table.findSome? (·.target? c.toNat) with
  | some n => Char.ofNat n
  | none => c

def upper (c : Char) : List Char :=
  if c.toNat < 0x80 then [c.toUpper]
  else match upperExpansions.lookup c.toNat with
    | some expansion => expansion.map Char.ofNat
    | none => [shiftChar upperShifts c]

def isCased (c : Char) : Bool := inRanges casedRanges c.toNat

def isCaseIgnorable (c : Char) : Bool := inRanges caseIgnorableRanges c.toNat

/-- A word starts or goes on here: past ignored characters there is a cased one. -/
def meetsCased (chars : List Char) : Bool :=
  match chars.dropWhile isCaseIgnorable with
  | c :: _ => isCased c
  | [] => false

/-- Lower case of `c` between `before` (nearest first) and `after`. A sigma at the
end of a word, and not alone, takes its final form. -/
def lowerIn (before : List Char) (c : Char) (after : List Char) : List Char :=
  if c.toNat < 0x80 then [c.toLower]
  else if c = 'Σ' then
    if meetsCased before && !meetsCased after then ['ς'] else ['σ']
  else if c = 'İ' then ['i', Char.ofNat 0x307]
  else [shiftChar lowerShifts c]

def lowerFrom (before : List Char) : List Char → List Char
  | [] => []
  | c :: after => lowerIn before c after ++ lowerFrom (c :: before) after

def lower (text : List Char) : List Char := lowerFrom [] text

end FieldPlan.Text
