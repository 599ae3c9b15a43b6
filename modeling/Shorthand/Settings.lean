import Shorthand.Text.Basic

/-!
# Settings

What can be chosen about an expansion.
-/

namespace Shorthand

def defaultTag : Text :=
  "div"

structure Settings where
  /-- The tag of a leaf that names none. -/
  defaultTag : Text := Shorthand.defaultTag
  /-- Whether a parenthesis without a partner is an error, not only worth a warning. -/
  strictGrouping : Bool := false
  /-- The base of placeholder tokens; any will do if none is chosen. -/
  placeholderBase : Option Text := none
  deriving Repr, DecidableEq

end Shorthand
