import FieldPlan.Value.Text

/-! Writing values as JSON text over several lines, two blanks a level and ASCII
only. An empty list or mapping stays on its line. Bytes stand as their literal form. -/
namespace FieldPlan.Json

def escapeUnit (unit : Nat) : List Char := '\\' :: 'u' :: Text.hex 4 unit

def escapeChar (c : Char) : List Char :=
  if c = '"' || c = '\\' then ['\\', c]
  else if c = '\n' then ['\\', 'n']
  else if c = '\r' then ['\\', 'r']
  else if c = '\t' then ['\\', 't']
  else if c = '\x0c' then ['\\', 'f']
  else if c = '\x08' then ['\\', 'b']
  else if 0x20 ≤ c.toNat && c.toNat < 0x7F then [c]
  else if c.toNat < 0x10000 then escapeUnit c.toNat
  else
    let n := c.toNat - 0x10000
    escapeUnit (0xD800 + n / 0x400) ++ escapeUnit (0xDC00 + n % 0x400)

def quoted (text : String) : String :=
  "\"" ++ String.ofList (text.toList.flatMap escapeChar) ++ "\""

def renderNumber (x : Binary64) : String := x.renderWith "NaN" "Infinity"

def keyText : Value → String
  | .null => "null"
  | .bool b => if b then "true" else "false"
  | .int i => toString i
  | .float x => renderNumber x
  | .str s => s
  | .stamp m => m.text
  | _ => ""

def newline (depth : Nat) : String := "\n" ++ String.ofList (List.replicate (2 * depth) ' ')

def block (opening closing : String) (depth : Nat) : List String → String
  | [] => opening ++ closing
  | parts =>
    opening ++ newline (depth + 1) ++ ("," ++ newline (depth + 1)).intercalate parts ++
      newline depth ++ closing

mutual
def renderAt (depth : Nat) : Value → String
  | .null => "null"
  | .bool b => if b then "true" else "false"
  | .int i => toString i
  | .float x => renderNumber x
  | .str s => quoted s
  | .bytes data => quoted (Value.bytesText data)
  | .stamp m => quoted m.text
  | .list items => block "[" "]" depth (renderItems (depth + 1) items)
  | .tuple items => block "[" "]" depth (renderItems (depth + 1) items)
  | .set items => block "[" "]" depth (renderItems (depth + 1) items)
  | .mapping entries => block "\x7b" "\x7d" depth (renderEntries (depth + 1) entries)

def renderItems (depth : Nat) : List Value → List String
  | [] => []
  | v :: rest => renderAt depth v :: renderItems depth rest

def renderEntries (depth : Nat) : List (Value × Value) → List String
  | [] => []
  | (k, v) :: rest => (quoted (keyText k) ++ ": " ++ renderAt depth v) :: renderEntries depth rest
end

def render (value : Value) : String := renderAt 0 value

end FieldPlan.Json
