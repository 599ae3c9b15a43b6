import Shorthand.Node
import Shorthand.Rejection
import Shorthand.Text.Blank

/-!
# Leaves

A leaf is one element written as `tag#id.class[name=value]{text}`. The text block is cut off first,
then the attribute block; what is left is the selector.
-/

namespace Shorthand

namespace Leaf

structure Parts where
  selector : Text
  attributes : Option Text
  text : Option Text
  deriving Repr, DecidableEq

/-- Up to the first `c`, or all of a block that is never closed. -/
def blockBefore (c : CodePoint) (t : Text) : Text :=
  match Text.cutFirst c t with
  | some (a, _) => a
  | none => t

/-- What stands before the last `{` and, if there is one, the text block that it opens. -/
def cutText (t : Text) : Text × Option Text :=
  match Text.cutLast '{' t with
  | some (a, b) => (a, some (blockBefore '}' b))
  | none => (t, none)

/-- Takes out the attribute block that the last `[` opens. -/
def cutAttributes (t : Text) : Text × Option Text :=
  match Text.cutLast '[' t with
  | some (a, b) =>
    match Text.cutFirst ']' b with
    | some (inner, rest) => (a ++ rest, some inner)
    | none => (a, some b)
  | none => (t, none)

def split (t : Text) : Parts :=
  let (rest, text) := cutText t
  let (selector, attributes) := cutAttributes rest
  ⟨selector, attributes, text⟩

/-- A value with a double quote in it keeps what stands between its first and its last one. -/
def unquote (value : Text) : Text :=
  match Text.cutFirst '"' value with
  | none => value
  | some (_, r) =>
    match Text.cutLast '"' r with
    | some (inner, _) => inner
    | none => []

def pair (expression : Option Text) (source item : Text) :
    Except Rejection (Text × Text) :=
  match Text.cutFirst '=' item with
  | some (name, value) => .ok (name, unquote value)
  | none => .error ⟨.attributeWithoutValue item, expression, some source⟩

def attributes (expression : Option Text) (source : Text) :
    Except Rejection (List (Text × Text)) :=
  (Text.words source).mapM (pair expression source)

structure Selector where
  tag : Text
  id : Option Text
  classes : List Text
  deriving Repr, DecidableEq

def orElse (t : Text) (other : Text) : Text :=
  if t.isEmpty then other else t

def nonEmpty (t : Text) : Option Text :=
  if t.isEmpty then none else some t

/-- A second `#` and what follows it, up to the first dot, is ignored. -/
def selector (defaultTag t : Text) : Selector :=
  let ps := t.splitOn (.char '.')
  let qs := (ps.headD []).splitOn (.char '#')
  { tag := orElse (Text.trim (qs.headD [])) defaultTag
    id := qs.tail.head?.bind fun i => nonEmpty (Text.trim i)
    classes := ps.tail.map Text.trim }

/-- The element that a leaf stands for. -/
def expand (defaultTag : Text) (expression : Option Text) (t : Text) :
    Except Rejection Node := do
  let parts := split t
  let attrs ← match parts.attributes.bind nonEmpty with
    | some source => attributes expression source
    | none => pure []
  let s := selector defaultTag parts.selector
  return { tag := s.tag, id := s.id, classes := s.classes, attributes := attrs,
           text := parts.text.bind nonEmpty }

end Leaf

end Shorthand
