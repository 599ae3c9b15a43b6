import Shorthand.Text.Basic

/-!
# Terminal sequences

Sequences that a terminal takes for a change of colour or of place: an escape character, a bracket,
digits and some marks, and a letter. What is not written to a terminal goes without them.
-/

namespace Shorthand

namespace Text

namespace Terminal

def isParameter (c : CodePoint) : Bool :=
  c.isDigit || c == ';' || c == '?'

/-- Leaves sequences out of a text, after `held`, which may be the start of one. -/
def clean (held : Text) : Text → Text
  | [] => held
  | c :: r =>
    if c = '\x1b' then held ++ clean [c] r
    else if held = "\x1b" then if c = '[' then clean "\x1b[" r else held ++ c :: clean [] r
    else if held.isEmpty then c :: clean [] r
    else if isParameter c then clean (held ++ [c]) r
    else if c.isAlpha then clean [] r
    else held ++ c :: clean [] r

end Terminal

def withoutSequences (t : Text) : Text :=
  Terminal.clean [] t

end Text

end Shorthand
