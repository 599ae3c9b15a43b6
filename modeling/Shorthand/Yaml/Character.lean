import Shorthand.Text.Basic

/-!
# Characters of YAML

The classes of characters that YAML tells apart.
-/

namespace Shorthand

namespace Yaml

/-- The line breaks other than the carriage return. -/
def isBreak (c : CodePoint) : Bool :=
  c == '\n' || c == '\x85' || c == '\u2028' || c == '\u2029'

def isLineBreak (c : CodePoint) : Bool :=
  c == '\r' || isBreak c

/-- What separates an indicator from what follows it. -/
def isGap (c : CodePoint) : Bool :=
  c == '\x00' || c == ' ' || c == '\t' || isLineBreak c

def isGapOrEnd (c : Option CodePoint) : Bool :=
  c.all isGap

/-- The same, but for tabs. -/
def isSpaceOrEnd (c : Option CodePoint) : Bool :=
  c.all fun c : CodePoint => c != '\t' && isGap c

def isBreakOrEnd (c : Option CodePoint) : Bool :=
  c.all fun c : CodePoint => c == '\x00' || isLineBreak c

/-- The characters that a stream may hold. -/
def isReadable (c : CodePoint) : Bool :=
  let n := c.toNat
  n == 9 || n == 10 || n == 13 || (0x20 ≤ n && n ≤ 0x7E) || n == 0x85 || (0xA0 ≤ n && n ≤ 0xD7FF) ||
    (0xE000 ≤ n && n ≤ 0xFFFD) || 0x10000 ≤ n

/-- The characters of the names of anchors, handles and directives. -/
def isNameChar (c : CodePoint) : Bool :=
  c.isAlphanum || c == '-' || c == '_'

def isUriChar (c : CodePoint) : Bool :=
  c.isAlphanum || (Text.ofString "-;/?:@&=+$,_.!~*'()[]%").contains c

end Yaml

end Shorthand
