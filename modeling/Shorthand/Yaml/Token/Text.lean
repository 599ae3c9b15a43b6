import Shorthand.Json.Reader
import Shorthand.Yaml.Token

/-!
# Texts of scalars

The text that a scalar stands for, in each of the styles in which it can be written: plain, quoted,
and as a block of lines that are kept or folded.
-/

namespace Shorthand

namespace Yaml

/-! ### Plain -/

/-- The length of the plain text here, which ends before a gap or an indicator. -/
def plainLength (inFlow : Bool) : Text → Nat
  | [] => 0
  | c :: r =>
    let flow : Text := ",[]\x7b\x7d"
    let ends := isGap c ||
      (c == ':' && r.head?.all fun d => isGap d || (inFlow && flow.contains d)) ||
      (inFlow && (c == '?' || flow.contains c))
    if ends then 0 else plainLength inFlow r + 1

/-- Further line breaks after a first one, or nothing if a document ends there. -/
def plainBreaks : Nat → Cursor → Text → Option Text × Cursor
  | 0, c, found => (some found, c)
  | n + 1, c, found =>
    if c.sees ' ' then plainBreaks n c.next found
    else match c.lineBreak with
      | ([], _) => (some found, c)
      | (b, d) => if d.atMarker then (none, d) else plainBreaks n d (found ++ b)

/-- A line break reads as a space, unless it is a Unicode one or more follow it. -/
def foldBreak (first more : Text) : Text :=
  if first != "\n" then first ++ more else if more.isEmpty then " " else more

/-- What stands between two parts of a plain scalar, and whether it holds a line break. -/
def plainGap (c : Cursor) : Text × Cursor × Bool :=
  let spaces := c.rest.takeWhile fun x : CodePoint => x == ' '
  let c := c.advance spaces.length
  match c.lineBreak with
  | ([], _) => (spaces, c, false)
  | (first, d) =>
    if d.atMarker then ([], d, true)
    else match plainBreaks d.rest.length d [] with
      | (none, e) => ([], e, true)
      | (some more, e) => (foldBreak first more, e, true)

/-- The text of a plain scalar after a gap, and whether it ended at a line break. -/
def plainText (inFlow : Bool) (indent : Int) : Nat → Cursor → Text → Bool → Text × Cursor × Bool
  | 0, c, _, broken => ([], c, broken)
  | n + 1, c, gap, broken =>
    let length := plainLength inFlow c.rest
    if c.sees '#' || length = 0 then ([], c, broken)
    else
      let word := c.rest.take length
      let (next, d, broken) := plainGap (c.advance length)
      if next.isEmpty || d.sees '#' || (!inFlow && d.column < indent) then
        (gap ++ word, d, broken)
      else
        let (more, e, broken) := plainText inFlow indent n d next broken
        (gap ++ word ++ more, e, broken)

/-! ### Quoted -/

/-- The line breaks after a first one in a quoted text. -/
def quotedBreaks : Nat → Cursor → Text → Except Fault (Text × Cursor)
  | 0, _, _ => .error .malformed
  | n + 1, c, found =>
    if c.atMarker then .error .malformed
    else
      let c := c.skipWhile fun x => x == ' ' || x == '\t'
      match c.lineBreak with
      | ([], _) => .ok (found, c)
      | (b, d) => quotedBreaks n d (found ++ b)

/-- Blanks in a quoted text: those around line breaks are dropped. -/
def quotedBlanks (c : Cursor) : Except Fault (Text × Cursor) :=
  let blanks := c.rest.takeWhile fun x : CodePoint => x == ' ' || x == '\t'
  let c := c.advance blanks.length
  if c.rest.isEmpty then .error .malformed
  else match c.lineBreak with
    | ([], _) => .ok (blanks, c)
    | (first, d) => do
      let (more, e) ← quotedBreaks (d.rest.length + 1) d []
      return (foldBreak first more, e)

def escapes : List (CodePoint × CodePoint) :=
  [('0', '\x00'), ('a', '\x07'), ('b', '\x08'), ('t', '\t'), ('\t', '\t'), ('n', '\n'),
   ('v', '\x0b'), ('f', '\x0c'), ('r', '\r'), ('e', '\x1b'), (' ', ' '), ('"', '"'), ('\\', '\\'),
   ('/', '/'), ('N', '\x85'), ('_', '\xa0'), ('L', '\u2028'), ('P', '\u2029')]

def codeLength (c : CodePoint) : Option Nat :=
  match c with
  | 'x' => some 2
  | 'u' => some 4
  | 'U' => some 8
  | _ => none

/-- The code point of an escape with `n` digits, at which the cursor is. -/
def codeAt (n : Nat) (c : Cursor) : Except Fault (CodePoint × Cursor) :=
  let digits := c.rest.take n
  match Json.hexNumber digits with
  | some code =>
    if digits.length != n then .error .malformed
    else if 0x80000000 ≤ code then .error .hugeCodePoint
    else if 0x110000 ≤ code then .error .codePoint
    else .ok (.ofNat code, c.advance n)
  | none => .error .malformed

/-- What an escape stands for; the cursor is after the backslash. -/
def escapeAt (c : Cursor) : Except Fault (Text × Cursor) :=
  match c.peek with
  | none => .error .malformed
  | some x =>
    match escapes.lookup x, codeLength x with
    | some e, _ => .ok ([e], c.next)
    | none, some n => do
      let (code, d) ← codeAt n c.next
      return ([code], d)
    | none, none =>
      match c.lineBreak with
      | ([], _) => .error .malformed
      | (_, d) => do
        let (t, d) ← quotedBreaks (d.rest.length + 1) d []
        return (t, d)

/-- The text up to the closing quote. -/
def quotedText (double : Bool) : Nat → Cursor → Except Fault (Text × Cursor)
  | 0, _ => .error .malformed
  | n + 1, c =>
    match c.peek with
    | none => .error .malformed
    | some x =>
      if !double && x = '\'' then
        if Text.startsWith (c.rest.drop 1) '\'' then do
          let (t, d) ← quotedText double n (c.advance 2)
          return (x :: t, d)
        else .ok ([], c.next)
      else if double && x = '"' then .ok ([], c.next)
      else if double && x = '\\' then do
        let (e, d) ← escapeAt c.next
        let (t, d) ← quotedText double n d
        return (e ++ t, d)
      else if isGap x then do
        let (b, d) ← quotedBlanks c
        let (t, d) ← quotedText double n d
        return (b ++ t, d)
      else do
        let (t, d) ← quotedText double n c.next
        return (x :: t, d)

/-! ### Blocks -/

/-- What becomes of the line breaks at the end of a block. -/
inductive Chomping where
  | strip
  | clip
  | keep
  deriving DecidableEq

def chompingOf (c : CodePoint) : Option Chomping :=
  if c = '+' then some .keep else if c = '-' then some .strip else none

/-- The header of a block: how it is chomped and how far it is indented, in either order. -/
def blockHeader (c : Cursor) : Except Fault (Chomping × Option Nat × Cursor) :=
  let digit (c : Cursor) : Option Nat := (c.peek.filter CodePoint.isDigit).map fun d => d.toNat - 48
  let sign (c : Cursor) : Option Chomping := c.peek.bind chompingOf
  let (chomping, increment, d) : Chomping × Option Nat × Cursor :=
    match sign c with
    | some s =>
      match digit c.next with
      | some i => (s, some i, c.next.next)
      | none => (s, none, c.next)
    | none =>
      match digit c with
      | some i =>
        match sign c.next with
        | some s => (s, some i, c.next.next)
        | none => (.clip, some i, c.next)
      | none => (.clip, none, c)
  if increment = some 0 || !isSpaceOrEnd d.peek then .error .malformed
  else .ok (chomping, increment, d)

/-- Blank lines before a block, and the deepest indentation among them and the first line. -/
def blockIndentation : Nat → Cursor → Text → Nat → Text × Nat × Cursor
  | 0, c, found, deepest => (found, deepest, c)
  | n + 1, c, found, deepest =>
    if c.sees ' ' then
      blockIndentation n c.next found (max deepest c.next.column)
    else match c.lineBreak with
      | ([], _) => (found, deepest, c)
      | (b, d) => blockIndentation n d (found ++ b) deepest

def skipIndent (indent : Nat) (c : Cursor) : Cursor :=
  c.advance ((c.rest.takeWhile fun x : CodePoint => x == ' ').length.min (indent - c.column))

/-- Line breaks between the lines of a block; the cursor goes up to the indentation. -/
def blockBreaks (indent : Nat) : Nat → Cursor → Text → Text × Cursor
  | 0, c, found => (found, c)
  | n + 1, c, found =>
    let c := skipIndent indent c
    match c.lineBreak with
    | ([], _) => (found, c)
    | (b, d) => blockBreaks indent n d (found ++ b)

def startsBlank (t : Text) : Bool :=
  Text.startsWith t ' ' || Text.startsWith t '\t'

/-- The lines of a block after some line breaks. When lines are folded, a line break between two
lines that are not indented further reads as a space. -/
def blockLines (folded : Bool) (indent : Nat) (chomping : Chomping) :
    Nat → Cursor → Text → Text → Text × Cursor
  | 0, c, _, _ => ([], c)
  | n + 1, c, last, breaks =>
    if c.column = indent && !c.rest.isEmpty then
      let line := c.rest.takeWhile (!isLineBreak ·)
      let (b, d) := (c.advance line.length).lineBreak
      let (more, e) := blockBreaks indent (d.rest.length + 1) d []
      let goesOn := e.column = indent && !e.rest.isEmpty
      let joined : Text :=
        if !goesOn then []
        else if folded && b = "\n" && !startsBlank line && !startsBlank e.rest then
          if more.isEmpty then " " else []
        else b
      let (rest, f) := blockLines folded indent chomping n e b more
      (breaks ++ line ++ joined ++ rest, f)
    else
      ((if chomping = .strip then [] else last) ++ (if chomping = .keep then breaks else []), c)

/-- A block scalar after its indicator, inside of a block with some indentation. -/
def blockText (folded : Bool) (outer : Int) (c : Cursor) : Except Fault (Text × Cursor) := do
  let (chomping, increment, c) ← blockHeader c
  let c ← c.restOfLine
  let least := (outer + 1).toNat.max 1
  let (breaks, indent, c) := match increment with
    | none =>
      let (found, deepest, d) := blockIndentation (c.rest.length + 1) c [] 0
      (found, least.max deepest, d)
    | some i =>
      let indent := least + i - 1
      let (found, d) := blockBreaks indent (c.rest.length + 1) c []
      (found, indent, d)
  return blockLines folded indent chomping (c.rest.length + 1) c [] breaks

end Yaml

end Shorthand
