import FieldPlan.Value
import FieldPlan.Decimal.Notation
import FieldPlan.Text.Quoted

/-! The text of a value. Its literal form tells values of different kinds apart and
is what messages show; its plain form is the same, except that a text stands
for itself and a time is written in figures. -/
namespace FieldPlan.Value

def renderNumber (x : Binary64) : String := x.renderWith "nan" "inf"

def byteText (quote : Char) (b : UInt8) : List Char :=
  let ch := Char.ofNat b.toNat
  if b < 0x80 then Text.escapeIn quote ch else Text.escapeByCode ch

def bytesText (data : List UInt8) : String :=
  let quote := Text.quoteFor (data.map fun b => Char.ofNat b.toNat)
  String.ofList ('b' :: quote :: data.flatMap (byteText quote) ++ [quote])

mutual
def literal : Value → String
  | .null => "None"
  | .bool b => if b then "True" else "False"
  | .int i => toString i
  | .float x => renderNumber x
  | .str s => Text.quoted s
  | .bytes data => bytesText data
  | .stamp m => m.literal
  | .list items => "[" ++ ", ".intercalate (literals items) ++ "]"
  | .tuple [item] => "(" ++ literal item ++ ",)"
  | .tuple items => "(" ++ ", ".intercalate (literals items) ++ ")"
  | .set [] => "set()"
  | .set items => "\x7b" ++ ", ".intercalate (literals items) ++ "\x7d"
  | .mapping entries => "\x7b" ++ ", ".intercalate (literalEntries entries) ++ "\x7d"

def literals : List Value → List String
  | [] => []
  | v :: rest => literal v :: literals rest

def literalEntries : List (Value × Value) → List String
  | [] => []
  | (k, v) :: rest => (literal k ++ ": " ++ literal v) :: literalEntries rest
end

def plain : Value → String
  | .str s => s
  | .stamp m => m.text
  | v => literal v

end FieldPlan.Value
