import Shorthand.Text.Blank
import Shorthand.Text.CellWidth

/-!
# Wrapping

A line of text broken into lines of at most some number of columns. Lines break before words; a
word that is wider than a line is broken anywhere. Blanks stay at the ends of lines as far as there
is room for them.
-/

namespace Shorthand

namespace Text

/-- Maximal runs of characters that are not blank, each with the blanks after it. Blanks at the
start are a run of their own. -/
def runs : Text → List Text
  | [] => []
  | c :: r =>
    match runs r with
    | [] => [[c]]
    | w :: ws => if isBlank c && !w.head?.any isBlank then [c] :: w :: ws else (c :: w) :: ws

/-- The words with the blanks around them: those after each word, and before the first. -/
def spacedWords (t : Text) : List Text :=
  match runs t with
  | w :: v :: ws => if w.head?.any isBlank then (w ++ v) :: ws else w :: v :: ws
  | ws => ws

/-- Parts of a word that are as wide as they can be; `used` columns are taken by the first one. -/
def chop (width : Nat) (used : Nat) : Text → List Text
  | [] => [[]]
  | c :: r =>
    let w := cellWidth c
    if width < used + w then
      match chop width w r with
      | [] => [[], [c]]
      | p :: ps => [] :: (c :: p) :: ps
    else
      match chop width (used + w) r with
      | [] => [[c]]
      | p :: ps => (c :: p) :: ps

/-- Puts words on lines, after `used` columns of a first line that starts with `line`. -/
def fill (width : Nat) (line : Text) (used : Nat) : List Text → List Text
  | [] => [line]
  | w :: ws =>
    let size := cells (trimEnd w)
    if used + size ≤ width then fill width (line ++ w) (used + cells w) ws
    else
      let before := if line.isEmpty then [] else [line]
      if width < size then
        let parts := chop width 0 w
        let final := parts.getLastD []
        before ++ parts.dropLast ++ fill width final (cells final) ws
      else before ++ fill width w (cells w) ws

/-- Drops blanks from the end of a line that has more characters than there are columns. -/
def dropExcess (width : Nat) (line : Text) : Text :=
  let blanks := line.length - (trimEnd line).length
  line.take (line.length - min blanks (line.length - width))

/-- Looks for a start of a line that fills some columns, by halving what is between two places.
Characters without a width make several starts as wide; the first one met is taken. Half of a wide
character is a space. -/
def clipBetween (width : Nat) (line : Text) : Nat → Nat → Nat → Text
  | 0, low, _ => line.take low
  | n + 1, low, high =>
    let middle := (low + high) / 2
    let start := line.take (middle + 1)
    let size := cells start
    if size = width + 1 && start.getLast?.any (cellWidth · == 2) then start.dropLast ++ " "
    else if size = width then start
    else if width < size then clipBetween width line n low middle
    else clipBetween width line n middle high

/-- As much of a line as there are columns for. -/
def clip (width : Nat) (line : Text) : Text :=
  if cells line ≤ width then line else clipBetween width line (line.length + 1) 0 line.length

/-- Tabs as spaces up to the next multiple of eight columns, from a column on. -/
def expandTabs (column : Nat) : Text → Text
  | [] => []
  | c :: r =>
    if c = '\t' then
      let size := 8 - column % 8
      List.replicate size (.char ' ') ++ expandTabs (column + size) r
    else c :: expandTabs (column + cellWidth c) r

def wrapLine (width : Nat) (line : Text) : List Text :=
  (fill width [] 0 (spacedWords (expandTabs 0 line))).map fun l => clip width (dropExcess width l)

def wrap (width : Nat) (t : Text) : List Text :=
  (t.splitOn (.char '\n')).flatMap (wrapLine width)

end Text

end Shorthand
