import Shorthand.Data
import Shorthand.Text.Quoted

/-!
# JSON, written

Data as JSON, every item on a line of its own and two spaces deeper than what holds it. Characters
beyond ASCII are written as they are or, on request, as escapes.
-/

namespace Shorthand

namespace Json

/-- The escape of a code point as UTF-16 units. -/
def unitEscape (c : CodePoint) : Text :=
  let n := c.toNat
  if n < 0x10000 then "\\u" ++ Text.hex 4 n
  else
    let m := n - 0x10000
    "\\u" ++ Text.hex 4 (0xD800 + m / 0x400) ++
      "\\u" ++ Text.hex 4 (0xDC00 + m % 0x400)

/-- The escape of a character, if it needs one. -/
def escape (ascii : Bool) (c : CodePoint) : Text :=
  if c = '"' then "\\\""
  else if c = '\\' then "\\\\"
  else if c = '\n' then "\\n"
  else if c = '\r' then "\\r"
  else if c = '\t' then "\\t"
  else if c = '\x0c' then "\\f"
  else if c = '\x08' then "\\b"
  else if c.toNat < 32 || (ascii && 127 ≤ c.toNat) then unitEscape c
  else [c]

def string (ascii : Bool) (t : Text) : Text :=
  "\"" ++ t.flatMap (escape ascii) ++ "\""

/-- A line break and the indentation of a depth. -/
def newline (depth : Nat) : Text :=
  '\n' :: List.replicate (2 * depth) ' '

mutual

def write (ascii : Bool) (depth : Nat) : Data → Text
  | .null => "null"
  | .bool true => "true"
  | .bool false => "false"
  | .number n => Text.decimal n
  | .text t => string ascii t
  | .list [] => "[]"
  | .list (d :: ds) =>
    "[" ++ newline (depth + 1) ++ write ascii (depth + 1) d ++ writeItems ascii (depth + 1) ds ++
      newline depth ++ "]"
  | .record [] => "\x7b\x7d"
  | .record ((k, d) :: es) =>
    "\x7b" ++ newline (depth + 1) ++ string ascii k ++ ": " ++ write ascii (depth + 1) d ++
      writeEntries ascii (depth + 1) es ++ newline depth ++ "\x7d"

def writeItems (ascii : Bool) (depth : Nat) : List Data → Text
  | [] => []
  | d :: ds => "," ++ newline depth ++ write ascii depth d ++ writeItems ascii depth ds

def writeEntries (ascii : Bool) (depth : Nat) : List (Text × Data) → Text
  | [] => []
  | (k, d) :: es =>
    "," ++ newline depth ++ string ascii k ++ ": " ++ write ascii depth d ++
      writeEntries ascii depth es

end

end Json

def Data.toJson (ascii : Bool) (d : Data) : Text :=
  Json.write ascii 0 d

end Shorthand
