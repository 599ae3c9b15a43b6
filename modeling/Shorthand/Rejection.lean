import Shorthand.Diagnostic

/-!
# Rejections

Why an expression has no expansion. A `Rejection` is the author's fault and points into the
expression; the other failures come from a caller that hands over an unsafe placeholder base or
levels that are empty.
-/

namespace Shorthand

/-- What can be wrong with an expression. -/
inductive Problem where
  | emptySibling
  | emptyRoot
  | emptyLevel
  | rootCount (n : Nat)
  | noRoot
  | attributeWithoutValue (item : Text)
  | unbalanced
  deriving Repr, DecidableEq

namespace Problem

def code : Problem → Text
  | attributeWithoutValue _ => "E_ATTRIBUTE_SYNTAX"
  | unbalanced => "E_UNBALANCED_GROUPING"
  | _ => "E_INVALID_EXPRESSION"

def message : Problem → Text
  | emptySibling => "empty sibling segment"
  | emptyRoot => "descendant chain has an empty root"
  | emptyLevel => "descendant chain has an empty level"
  | rootCount n =>
    "descendant chain root must be a single element, got " ++ Text.decimal n
  | noRoot => "descendant chain root resolves to no element"
  | attributeWithoutValue item =>
    "attribute " ++ Text.quoted item ++ " is missing '='"
  | unbalanced => "unbalanced parentheses"

end Problem

/-- A problem, the expression that has it, and the part of it where the problem is. -/
structure Rejection where
  problem : Problem
  expression : Option Text := none
  segment : Option Text := none
  deriving Repr, DecidableEq

def Rejection.diagnostic (r : Rejection) : Diagnostic :=
  ⟨r.problem.code, r.problem.message, r.expression, r.segment⟩

inductive Failure where
  | rejected (r : Rejection)
  | unsafeBase (base : Text)
  | missingLevel
  deriving Repr, DecidableEq

/-- A level that is missing is told as what it is looked up by, a place in a list. -/
def Failure.message : Failure → Text
  | rejected r => r.diagnostic.render
  | unsafeBase b => "unsafe placeholder prefix: " ++ Text.quoted b
  | missingLevel => "list index out of range"

end Shorthand
