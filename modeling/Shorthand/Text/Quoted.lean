import Shorthand.Text.Printable

/-!
# Quoted text

The form in which messages show a text: between quotes, on one line, with every character that
does not print written as an escape.
-/

namespace Shorthand

namespace Text

def hexDigit (n : Nat) : CodePoint :=
  if n % 16 < 10 then Char.ofNat (n % 16 + 48) else Char.ofNat (n % 16 + 87)

/-- The last `width` hexadecimal digits of a number. -/
def hex : Nat → Nat → Text
  | 0, _ => []
  | width + 1, n => hex width (n / 16) ++ [hexDigit n]

/-- The shortest of the escapes for two, four and eight digits that can hold the code point. -/
def escapeCode (c : CodePoint) : Text :=
  let n := c.toNat
  if n < 0x100 then "\\x" ++ hex 2 n
  else if n < 0x10000 then "\\u" ++ hex 4 n
  else "\\U" ++ hex 8 n

def escape (quote c : CodePoint) : Text :=
  if c = quote || c = '\\' then ['\\', c]
  else if c = '\n' then "\\n"
  else if c = '\r' then "\\r"
  else if c = '\t' then "\\t"
  else if isPrintable c then [c]
  else escapeCode c

/-- Single quotes, unless the text has one of those and no double quote. -/
def quoteFor (t : Text) : CodePoint :=
  if t.contains '\'' && !t.contains '"' then '"' else '\''

def quoted (t : Text) : Text :=
  let q := quoteFor t
  q :: t.flatMap (escape q) ++ [q]

end Text

end Shorthand
