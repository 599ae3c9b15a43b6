import Shorthand.Data
import Shorthand.Text.Quoted
import Shorthand.Yaml.Character
import Shorthand.Yaml.Scalar

/-!
# YAML, written

Data as YAML in block style. A text is written plain where it reads back as the same text, else
in single quotes, else in double quotes with escapes; long ones are folded at spaces past the
eightieth column.
-/

namespace Shorthand

namespace Yaml

/-- What is found in a text that bears on how it may be written. -/
structure Features where
  indicators : Bool := false
  breaks : Bool := false
  special : Bool := false
  edgeBlank : Bool := false
  breakSpace : Bool := false
  spaceBreak : Bool := false

/-- Printable in YAML without an escape, the line feed included. -/
def isOrdinary (c : CodePoint) : Bool :=
  let n := c.toNat
  c == '\n' || (0x20 ≤ n && n ≤ 0x7E) || n == 0x85 || (0xA0 ≤ n && n ≤ 0xD7FF) ||
    (0xE000 ≤ n && n ≤ 0xFFFD && n != 0xFEFF) || (0x10000 ≤ n && n < 0x10FFFF)

def leadIndicators : Text :=
  Char.ofNat 0x60 :: Text.ofString "#,[]\x7b\x7d&*!|>'\"%@"

/-- Whether a character at the start of a text would be read as an indicator. -/
def isLeadIndicator (c : CodePoint) (next : Option CodePoint) : Bool :=
  leadIndicators.contains c || ((c == '?' || c == ':' || c == '-') && isGapOrEnd next)

/-- Whether a character within a text would be read as an indicator. -/
def isInnerIndicator (previous c : CodePoint) (next : Option CodePoint) : Bool :=
  (c == ':' && isGapOrEnd next) || (c == '#' && isGap previous)

def features (previous : Option CodePoint) (found : Features) : Text → Features
  | [] => found
  | c :: r =>
    let next := r.head?
    let edge := previous.isNone || next.isNone
    features (some c)
      { indicators := found.indicators || (match previous with
          | none => isLeadIndicator c next
          | some p => isInnerIndicator p c next)
        breaks := found.breaks || isBreak c
        special := found.special || !isOrdinary c
        edgeBlank := found.edgeBlank || (edge && (c == ' ' || isBreak c))
        breakSpace := found.breakSpace || (c == ' ' && previous.any isBreak)
        spaceBreak := found.spaceBreak || (isBreak c && previous == some (.char ' ')) } r

def featuresOf (t : Text) : Features :=
  let start := t.take 3
  let marker := start == "---" || start == "..."
  features none { indicators := marker } t

inductive Style where
  | plain
  | single
  | double
  deriving Repr, DecidableEq

def Features.allowsPlain (f : Features) : Bool :=
  !f.indicators && !f.breaks && !f.special && !f.edgeBlank && !f.breakSpace && !f.spaceBreak

def Features.allowsSingle (f : Features) : Bool :=
  !f.special && !f.breakSpace && !f.spaceBreak

/-- How a text is written; a key that stands before its colon on one line has no line breaks. -/
def styleOf (key : Bool) (t : Text) : Style :=
  let f := featuresOf t
  if kindOf t = .text && f.allowsPlain then .plain
  else if f.allowsSingle && !(key && f.breaks) then .single
  else .double

/-- Where the next character is written. `fresh` says that no space is needed before an indicator,
`indenting` that only indentation and indicators stand on the line. -/
structure Pen where
  reversed : Text := []
  column : Nat := 0
  fresh : Bool := true
  indenting : Bool := true

def width : Nat :=
  80

namespace Pen

def put (p : Pen) (t : Text) : Pen :=
  { p with reversed := t.reverse ++ p.reversed, column := p.column + t.length }

def lineBreak (p : Pen) (c : CodePoint) : Pen :=
  ⟨c :: p.reversed, 0, true, true⟩

/-- Moves to an indentation, on a new line unless the pen stands before it on a line of its own. -/
def indentTo (p : Pen) (n : Nat) : Pen :=
  let stays := p.indenting && (p.column < n || (p.column == n && p.fresh))
  let p := if stays then p else p.lineBreak '\n'
  if p.column < n then { p.put (List.replicate (n - p.column) ' ') with fresh := true } else p

/-- Writes an indicator, after a space if one is needed. -/
def indicator (p : Pen) (c : CodePoint) (spaced indents : Bool) : Pen :=
  let q := p.put (if p.fresh || !spaced then [c] else [' ', c])
  { q with fresh := false, indenting := p.indenting && indents }

def settled (p : Pen) : Pen :=
  { p with fresh := false, indenting := false }

end Pen

inductive Class where
  | space
  | lineEnd
  | other
  deriving DecidableEq

def classOf (c : CodePoint) : Class :=
  if c = ' ' then .space else if isBreak c then .lineEnd else .other

/-- The runs of spaces, of line ends and of other characters. -/
def runs (t : Text) : List Text :=
  t.splitBy fun a b => classOf a = classOf b

def putBreaks (p : Pen) (indent : Nat) (run : Text) : Pen :=
  let p := if Text.startsWith run '\n' then p.lineBreak '\n' else p
  (run.foldl Pen.lineBreak p).indentTo indent

def doubleQuotes (c : CodePoint) : Text :=
  if c = '\'' then "''" else [c]

/-- Writes the runs between single quotes. A lone space may become a line break, but for one at
either end. -/
def putSingle (indent : Nat) (fold : Bool) : Bool → Pen → List Text → Pen
  | _, p, [] => p
  | first, p, run :: rest =>
    let q := match run.head?.map classOf with
      | some .space =>
        if run.length = 1 && p.column > width && fold && !first && !rest.isEmpty then
          p.indentTo indent
        else p.put run
      | some .lineEnd => putBreaks p indent run
      | _ => p.put (run.flatMap doubleQuotes)
    putSingle indent fold false q rest

def putPlain (indent : Nat) (fold : Bool) : Pen → List Text → Pen
  | p, [] => p
  | p, run :: rest =>
    let q :=
      if run = " " && p.column > width && fold then (p.indentTo indent).settled else p.put run
    putPlain indent fold q rest

def shortEscapes : List (CodePoint × CodePoint) :=
  [('\x00', '0'), ('\x07', 'a'), ('\x08', 'b'), ('\t', 't'), ('\n', 'n'), ('\x0b', 'v'),
   ('\x0c', 'f'), ('\r', 'r'), ('\x1b', 'e'), ('"', '"'), ('\\', '\\'), ('\x85', 'N'),
   ('\xa0', '_'), ('\u2028', 'L'), ('\u2029', 'P')]

def upperHex (digits n : Nat) : Text :=
  (Text.hex digits n).map CodePoint.toUpper

def escapeOf (c : CodePoint) : Text :=
  match shortEscapes.lookup c with
  | some e => ['\\', e]
  | none =>
    let n := c.toNat
    if n < 0x100 then "\\x" ++ upperHex 2 n
    else if n < 0x10000 then "\\u" ++ upperHex 4 n
    else "\\U" ++ upperHex 8 n

def needsEscape (c : CodePoint) : Bool :=
  let n := c.toNat
  c == '"' || c == '\\' || isBreak c || n == 0xFEFF ||
    !((0x20 ≤ n && n ≤ 0x7E) || (0xA0 ≤ n && n ≤ 0xD7FF) || (0xE000 ≤ n && n ≤ 0xFFFD))

/-- Writes what stands between double quotes. `pending` holds, last first, the characters that are
not written yet; a line may end before a space or where nothing is pending. -/
def putDouble (indent : Nat) (fold : Bool) : Bool → Pen → Text → Text → Pen
  | _, p, pending, [] => p.put pending.reverse
  | first, p, pending, c :: r =>
    let escaped := needsEscape c
    let p := if escaped then (p.put pending.reverse).put (escapeOf c) else p
    let pending := if escaped then [] else pending
    let after := p.column + pending.length
    let full := if escaped then after > width + 1 else after > width
    let ends := !first && !r.isEmpty && (c == ' ' || escaped || pending.isEmpty) && full && fold
    let next := if escaped then r.head? else some c
    let p :=
      if ends then
        let q := ((p.put (pending.reverse ++ "\\")).indentTo indent).settled
        if next == some (.char ' ') then q.put "\\" else q
      else p
    let pending := if ends then [] else pending
    putDouble indent fold false p (if escaped then pending else c :: pending) r

/-- Writes a text; continuation lines go to the given indentation. -/
def putText (p : Pen) (indent : Nat) (key : Bool) (t : Text) : Pen :=
  match styleOf key t with
  | .plain =>
    let q := (if p.fresh then p else p.put " ").settled
    putPlain indent (!key) q (runs t)
  | .single =>
    let q := putSingle indent (!key) true (p.indicator '\'' true false) (runs t)
    q.indicator '\'' false false
  | .double =>
    let q := putDouble indent (!key) true (p.indicator '"' true false) [] t
    q.indicator '"' false false

/-- Puts a word that stands for itself. -/
def putWord (p : Pen) (t : Text) : Pen :=
  ((if p.fresh then p else p.put " ").put t).settled

/-- A key that is short, not empty and on one line stands before its colon; its length counts five
characters of its tag. -/
def isSimpleKey (t : Text) : Bool :=
  !t.isEmpty && t.length + 5 < 128 && !t.any isBreak

/-- The indentation one level deeper than `indent`, where `none` is outside of everything. -/
def deeper (indent : Option Nat) : Nat :=
  match indent with
  | none => 0
  | some n => n + 2

def textIndent (indent : Option Nat) : Nat :=
  match indent with
  | none => 2
  | some n => n + 2

def putKey (p : Pen) (indent : Nat) (k : Text) : Pen :=
  let p := p.indentTo indent
  if isSimpleKey k then (putText p (indent + 2) true k).indicator ':' false false
  else
    ((putText (p.indicator '?' true true) (indent + 2) false k).indentTo indent).indicator ':' true
      true

mutual

/-- Writes data. A list that is the value of a key on the same line is not indented further. -/
def put (p : Pen) (indent : Option Nat) (inRecord : Bool) : Data → Pen
  | .null => putWord p "null"
  | .bool b => putWord p (if b then "true" else "false")
  | .number n => putWord p (Text.decimal n)
  | .text t => putText p (textIndent indent) false t
  | .list [] => (p.indicator '[' true false).indicator ']' false false
  | .list (d :: ds) =>
    let i := if inRecord && !p.indenting then indent.getD 0 else deeper indent
    putItems p i (d :: ds)
  | .record [] => (p.indicator '{' true false).indicator '}' false false
  | .record (e :: es) => putEntries p (deeper indent) (e :: es)

def putItems (p : Pen) (indent : Nat) : List Data → Pen
  | [] => p
  | d :: ds =>
    let q := (p.indentTo indent).indicator '-' true true
    putItems (put q (some indent) false d) indent ds

def putEntries (p : Pen) (indent : Nat) : List (Text × Data) → Pen
  | [] => p
  | (k, d) :: es => putEntries (put (putKey p indent k) (some indent) true d) indent es

end

end Yaml

/-- Data as a YAML document. -/
def Data.toYaml (d : Data) : Text :=
  ((Yaml.put {} none false d).indentTo 0).reversed.reverse

end Shorthand
