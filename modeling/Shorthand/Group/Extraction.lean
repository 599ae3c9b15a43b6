import Shorthand.Group.Base

/-!
# Groups

Parenthesized groups are cut out of an expression, innermost first, and replaced by tokens, so that
an operator which is left in the flat text stands outside of all groups. The inner text of a group
may hold the tokens of groups cut out before it. Restoring puts the source text back.
-/

namespace Shorthand

/-- Around the first closing parenthesis, if no opening one comes before it. -/
def closeAt : Text → Option (Text × Text)
  | [] => none
  | c :: r =>
    if c = ')' then some ([], r)
    else if c = '(' then none
    else (closeAt r).map fun (a, b) => (c :: a, b)

/-- The first pair of parentheses with no parenthesis inside: what is before, in and after it. -/
def firstGroup : Text → Option (Text × Text × Text)
  | [] => none
  | c :: r =>
    match if c = '(' then closeAt r else none with
    | some (inner, after) => some ([], inner, after)
    | none => (firstGroup r).map fun (a, i, b) => (c :: a, i, b)

/-- An expression without its groups. These are listed as they were cut out, each with its token. -/
structure Extraction where
  flat : Text
  groups : List (Text × Text)
  source : TokenSource
  deriving Repr, DecidableEq

/-- Every step takes a closing parenthesis away, so the length of the text bounds their number. -/
def extractWithin : Nat → TokenSource → Text → Extraction
  | 0, source, t => ⟨t, [], source⟩
  | n + 1, source, t =>
    match firstGroup t with
    | none => ⟨t, [], source⟩
    | some (before, inner, after) =>
      let rest := extractWithin n source.advance (before ++ source.token ++ after)
      { rest with groups := (source.token, inner) :: rest.groups }

def extract (source : TokenSource) (t : Text) : Extraction :=
  extractWithin t.length source t

namespace Extraction

/-- The token at the front of a text, if its number and underscore are there too. -/
def tokenAt (base t : Text) : Option Text :=
  if base.isPrefixOf t then
    let r := t.drop base.length
    let digits := r.takeWhile Text.isDecimalDigit
    if !digits.isEmpty && Text.startsWith (r.drop digits.length) '_' then
      some (base ++ digits ++ "_")
    else none
  else none

inductive Piece where
  | char (c : CodePoint)
  | token (t : Text)
  deriving Repr, DecidableEq

/-- Reads a text as characters and tokens, after skipping some characters. -/
def scanFrom (base : Text) : Nat → Text → List Piece
  | _, [] => []
  | n + 1, _ :: r => scanFrom base n r
  | 0, c :: r =>
    match tokenAt base (c :: r) with
    | some t => .token t :: scanFrom base (t.length - 1) r
    | none => .char c :: scanFrom base 0 r

def scan (base : Text) (t : Text) : List Piece :=
  scanFrom base 0 t

variable (g : Extraction)

def body? (key : Text) : Option Text :=
  g.groups.lookup key

/-- Whether a piece is exactly the token of a group. -/
def isPlaceholder (piece : Text) : Bool :=
  (g.body? piece).isSome

/-- Puts the source of each group back, through at most `n` levels of groups within groups. -/
def restoreWithin : Nat → Text → Option Text
  | 0, _ => none
  | n + 1, t =>
    List.flatten <$> (scan g.source.base t).mapM fun
      | .char c => some [c]
      | .token k =>
        match g.body? k with
        | none => some k
        | some b => (fun s => "(" ++ s ++ ")") <$> restoreWithin n b

def restore (t : Text) : Text :=
  (g.restoreWithin (g.groups.length + 1) t).getD t

/-- Whether no parenthesis is left over. -/
def isBalanced : Bool :=
  !g.flat.contains '(' && !g.flat.contains ')'

end Extraction

end Shorthand
