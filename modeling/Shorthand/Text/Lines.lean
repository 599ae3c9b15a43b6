import Shorthand.Text.Basic

/-!
# Lines

Line ends as files have them, and the lines of a text.
-/

namespace Shorthand

namespace Text

/-- A carriage return, alone or before a line feed, reads as a line feed. -/
def unifyLineEnds : Text → Text
  | [] => []
  | '\r' :: '\n' :: r => '\n' :: unifyLineEnds r
  | '\r' :: r => '\n' :: unifyLineEnds r
  | c :: r => c :: unifyLineEnds r

/-- The characters that end a line: the controls from line feed to carriage return, the information
separators, the next-line control and the two Unicode separators. -/
def isLineEnd (c : CodePoint) : Bool :=
  let n := c.toNat
  (10 ≤ n && n ≤ 13) || (28 ≤ n && n ≤ 30) || n == 0x85 || n == 0x2028 || n == 0x2029

/-- The lines of a text whose line ends are unified; what follows the last line end is a line only
if it is not empty. -/
def lines (t : Text) : List Text :=
  let ps := t.splitOnP isLineEnd
  if ps.getLast?.any (·.isEmpty) then ps.dropLast else ps

end Text

end Shorthand
