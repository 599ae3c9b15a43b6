import Shorthand.Rejection
import Shorthand.Text.Letter
import Shorthand.Text.Numeral

/-!
# Placeholder tokens

While an expression is taken apart, a token stands where a group was. A token is a base, a number
and an underscore. A base is safe if tokens built on it can be found again wherever they are
inserted, whatever text surrounds them.
-/

namespace Shorthand

/-- Whether `t` begins with some non-empty end of `e`. -/
def beginsWithEndOf (t : Text) : Text → Bool
  | [] => false
  | c :: r => (c :: r).isPrefixOf t || beginsWithEndOf t r

/-- Whether a text begins with one of its own proper ends. -/
def overlapsItself (t : Text) : Bool :=
  beginsWithEndOf t t.tail

def isBaseChar (c : CodePoint) : Bool :=
  Text.isLetter c || Text.isNumeral c || Text.isDecimalDigit c || c == '_'

/-- A safe base starts with a letter, is made of letters, digits and underscores, and does not
overlap itself. -/
def isSafeBase (base : Text) : Bool :=
  base.head?.any Text.isLetter && base.all isBaseChar && !overlapsItself base

/-- The base that stands in where none is chosen, for a number that was drawn. -/
def drawnBase (drawn : Nat) : Text :=
  "segment_" ++ Text.decimal drawn ++ "_"

def defaultBase : Text :=
  drawnBase 0

/-- Where tokens come from: a base, and the number of the next token. -/
structure TokenSource where
  base : Text
  next : Nat := 0
  deriving Repr, DecidableEq

namespace TokenSource

def tokenOf (base : Text) (n : Nat) : Text :=
  base ++ Text.decimal n ++ "_"

def token (s : TokenSource) : Text :=
  tokenOf s.base s.next

def advance (s : TokenSource) : TokenSource :=
  { s with next := s.next + 1 }

/-- Appends underscores, at most `n` of them, until the base does not occur in the text. -/
def extendBase (text : Text) : Nat → Text → Text
  | 0, base => base
  | n + 1, base => if Text.occursIn base text then extendBase text n (base ++ "_") else base

/-- A source whose tokens do not occur in `text`. One more underscore than the text has characters
is always enough. -/
def forText (text : Text) (base : Option Text) (drawn : Nat := 0) :
    Except Failure TokenSource :=
  let start := base.getD (drawnBase drawn)
  if base.isSome && !isSafeBase start then .error (.unsafeBase start)
  else .ok { base := extendBase text (text.length + 1) start }

end TokenSource

end Shorthand
