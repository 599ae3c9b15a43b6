import Shorthand.Group.Extraction
import Shorthand.Leaf

/-!
# Lint

Flaws of an expression that may well expand, but hardly to what its author meant. Parentheses and
blocks are looked at in the text, the other flaws in each leaf. Findings come sorted, each once.
-/

namespace Shorthand

inductive Flaw where
  | unbalanced (unclosed unopened : Nat)
  | operatorInBlock (operator : CodePoint)
  | manyTexts
  | manyAttributeBlocks
  | manyIds
  | emptyClass
  deriving Repr, DecidableEq

namespace Flaw

def code : Flaw → Text
  | unbalanced .. => "L_UNBALANCED_GROUPING"
  | operatorInBlock _ => "L_OPERATOR_IN_BLOCK"
  | manyTexts => "L_MULTIPLE_TEXT_BLOCKS"
  | manyAttributeBlocks => "L_MULTIPLE_ATTRIBUTE_BLOCKS"
  | manyIds => "L_MULTIPLE_ID"
  | emptyClass => "L_EMPTY_CLASS"

def message : Flaw → Text
  | unbalanced unclosed unopened =>
    Text.decimal unclosed ++ " unclosed '(' and " ++ Text.decimal unopened ++
      " unopened ')' are kept as literal text"
  | operatorInBlock c =>
    Text.quoted [c] ++ " inside a block is treated as an operator, not literal text"
  | manyTexts => "only the last \x7b...\x7d block is used as text"
  | manyAttributeBlocks => "only the last [...] block is parsed as attributes"
  | manyIds => "only the first #id is used"
  | emptyClass => "empty class name (consecutive or trailing '.')"

end Flaw

structure Finding where
  flaw : Flaw
  expression : Text
  segment : Option Text := none
  deriving Repr, DecidableEq

def Finding.diagnostic (f : Finding) : Diagnostic :=
  ⟨f.flaw.code, f.flaw.message, some f.expression, f.segment⟩

namespace Lint

/-- The numbers of parentheses without a partner, after `depth` open and `stray` closing ones. -/
def strays (depth stray : Nat) : Text → Nat × Nat
  | [] => (depth, stray)
  | c :: r =>
    if c = '(' then strays (depth + 1) stray r
    else if c = ')' then
      if depth = 0 then strays 0 (stray + 1) r else strays (depth - 1) stray r
    else strays depth stray r

def balance (expression : Text) : List Finding :=
  let (unclosed, unopened) := strays 0 0 expression
  if unclosed = 0 && unopened = 0 then [] else [⟨.unbalanced unclosed unopened, expression, none⟩]

/-- A block that is open: what closes it, the text from its start, and whether it has been found
to hold an operator. -/
structure Block where
  closer : CodePoint
  start : Text
  flagged : Bool

def closerOf (c : CodePoint) : Option CodePoint :=
  if c = '{' then some '}' else if c = '[' then some ']' else none

def isOperator (c : CodePoint) : Bool :=
  c == '+' || c == '>' || c == '(' || c == ')'

/-- The first operator in each block. -/
def blocksFrom (expression : Text) : Option Block → Text → List Finding
  | _, [] => []
  | none, c :: r =>
    blocksFrom expression ((closerOf c).map fun d => ⟨d, c :: r, false⟩) r
  | some b, c :: r =>
    if c = b.closer then blocksFrom expression none r
    else if isOperator c && !b.flagged then
      ⟨.operatorInBlock c, expression, some b.start⟩ ::
        blocksFrom expression (some { b with flagged := true }) r
    else blocksFrom expression (some b) r

def blocks (expression : Text) : List Finding :=
  blocksFrom expression none expression

/-- What is left at the places of leaves when operators cut the flat text and the groups. -/
def leaves (g : Extraction) : List Text :=
  let levels := (g.flat :: g.groups.map (·.2)).flatMap fun piece =>
    (piece.splitOn (.char '+')).flatMap fun sibling =>
      (sibling.splitOn (.char '>')).map Text.trim
  (levels.filter fun l => !l.isEmpty && !g.isPlaceholder l).map g.restore

/-- Keeps the first of equal texts. -/
def once : List Text → List Text → List Text
  | _, [] => []
  | seen, t :: ts => if seen.contains t then once seen ts else t :: once (t :: seen) ts

def leafFlaws (leaf : Text) : List Flaw :=
  let selector := (Leaf.split leaf).selector
  let ps := selector.splitOn (.char '.')
  (if leaf.count (.char '{') > 1 then [.manyTexts] else []) ++
  (if selector.contains '[' then [.manyAttributeBlocks] else []) ++
  (if (ps.headD []).count (.char '#') > 1 then [.manyIds] else []) ++
  (if ps.tail.any fun c => (Text.trim c).isEmpty then [.emptyClass] else [])

def ofLeaf (expression leaf : Text) : List Finding :=
  (leafFlaws leaf).map fun f => ⟨f, expression, some leaf⟩

def sortKey (f : Finding) : List Text :=
  [f.flaw.code, f.segment.getD []]

def sort (fs : List Finding) : List Finding :=
  fs.mergeSort fun a b => Text.listAtMost (sortKey a) (sortKey b)

/-- The extraction in which leaves are looked for. -/
def extraction (base : Text) (expression : Text) : Extraction :=
  extract { base := TokenSource.extendBase expression (expression.length + 1) base } expression

/-- The findings in an expression with some base for tokens; any base gives the same. -/
def findings (base : Text) (expression : Text) : List Finding :=
  sort (balance expression ++ blocks expression ++
    (once [] (leaves (extraction base expression))).flatMap (ofLeaf expression))

end Lint

/-- What is doubtful about an expression. Any text can be linted, also one that does not expand. -/
def lint (source : Text) : List Finding :=
  Lint.findings defaultBase (Text.normalize source)

end Shorthand
