import Shorthand.Yaml.Character
import Shorthand.Yaml.Fault

/-!
# Tokens of YAML

A stream is read as indicators, properties and scalars. Indentation shows as tokens that start and
end blocks. This module also holds the cursor that knows its line and column.
-/

namespace Shorthand

namespace Yaml

inductive Directive where
  | version (major minor : Nat)
  | tag (handle uri : Text)
  | other
  deriving Repr, DecidableEq

inductive Token where
  | directive (d : Directive)
  | documentStart
  | documentEnd
  | sequenceStart
  | mappingStart
  | blockEnd
  | openSequence
  | closeSequence
  | openMapping
  | closeMapping
  | comma
  | entry
  | key
  | value
  | «alias» (name : Text)
  | anchor (name : Text)
  | tag (handle : Option Text) (suffix : Text)
  | scalar (text : Text) (plain : Bool)
  deriving Repr, DecidableEq

/-- The tokens of a stream, up to its end or up to the fault that keeps others from being read. -/
structure Tokens where
  list : List Token
  fault : Option Fault := none
  deriving Repr, DecidableEq

/-- What is left of a stream, and where it starts. -/
structure Cursor where
  rest : Text
  line : Nat := 0
  column : Nat := 0
  index : Nat := 0

namespace Cursor

def next (c : Cursor) : Cursor :=
  match c.rest with
  | [] => c
  | x :: r =>
    if isBreak x || (x == '\r' && !Text.startsWith r '\n') then ⟨r, c.line + 1, 0, c.index + 1⟩
    else if x = '\ufeff' then ⟨r, c.line, c.column, c.index + 1⟩
    else ⟨r, c.line, c.column + 1, c.index + 1⟩

def advance (c : Cursor) : Nat → Cursor
  | 0 => c
  | n + 1 => c.next.advance n

def peek (c : Cursor) : Option CodePoint :=
  c.rest.head?

def peekAt (c : Cursor) (n : Nat) : Option CodePoint :=
  c.rest[n]?

/-- Whether the next code point is the given one. -/
def sees (c : Cursor) (x : CodePoint) : Bool :=
  Text.startsWith c.rest x

def skipWhile (c : Cursor) (p : CodePoint → Bool) : Cursor :=
  c.advance (c.rest.takeWhile p).length

def skipSpaces (c : Cursor) : Cursor :=
  c.skipWhile fun x => x == ' '

/-- Goes past a line break, if one is here, and gives it as it is read. -/
def lineBreak (c : Cursor) : Text × Cursor :=
  match c.rest with
  | '\r' :: '\n' :: _ => ("\n", c.advance 2)
  | x :: _ =>
    if x = '\r' || x = '\n' || x = '\x85' then ("\n", c.next)
    else if x = '\u2028' || x = '\u2029' then ([x], c.next)
    else ([], c)
  | [] => ([], c)

/-- Whether one of the two marks between documents is here. -/
def atMarker (c : Cursor) : Bool :=
  ((Text.ofString "---").isPrefixOf c.rest || (Text.ofString "...").isPrefixOf c.rest) &&
    isGapOrEnd (c.peekAt 3)

/-- Goes past spaces and a comment, which have to end the line. -/
def restOfLine (c : Cursor) : Except Fault Cursor :=
  let c := c.skipSpaces
  let c := if c.sees '#' then c.skipWhile (!isLineBreak ·) else c
  if isBreakOrEnd c.peek then .ok c.lineBreak.2 else .error .malformed

end Cursor

end Yaml

end Shorthand
