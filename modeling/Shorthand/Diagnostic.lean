import Shorthand.Text.Quoted

/-!
# Diagnostics

What a user is told: a code, a message, and where it applies, which is an expression, a segment of
it, both or neither.
-/

namespace Shorthand

structure Diagnostic where
  code : Text
  message : Text
  expression : Option Text := none
  segment : Option Text := none
  deriving Repr, DecidableEq

namespace Diagnostic

/-- Where a diagnostic applies, with the texts in quotes. -/
def place (d : Diagnostic) : Text :=
  match d.expression, d.segment with
  | none, none => "<expression>"
  | some e, none => Text.quoted e
  | none, some s => Text.quoted s
  | some e, some s => Text.quoted e ++ ":" ++ Text.quoted s

def render (d : Diagnostic) : Text :=
  d.place ++ ": " ++ d.code ++ ": " ++ d.message

end Diagnostic

end Shorthand
