import Shorthand.Leaf
import Shorthand.Settings
import Shorthand.Tree

/-!
# Expansion

From an expression to the nodes it stands for: groups are cut out, the tree is parsed and every
chain is composed into one root. A run also tells its steps, in order, and what it warns of.
-/

namespace Shorthand

/-- Every level of a chain hangs under the first node of the level before it. -/
def nest (first : Node) : List (List Node) → Except Failure Node
  | [] => .ok first
  | [] :: _ => .error .missingLevel
  | (n :: ns) :: levels => do
    let child ← nest n levels
    return first.adopt (child :: ns)

/-- Composes the levels of a chain under its root, which has to be a single node. -/
def compose (expression segment : Option Text) : List (List Node) → Except Failure Node
  | [] => .error .missingLevel
  | [root] :: levels => nest root levels
  | roots :: _ => .error (.rejected ⟨.rootCount roots.length, expression, segment⟩)

/-- Composes a chain whose levels have been evaluated. -/
def composeChain (expression : Option Text) (source : Text) :
    List (List Node) → Except Failure Node
  | [] :: _ => .error (.rejected ⟨.noRoot, expression, some source⟩)
  | levels => compose expression (some source) levels

section
variable (defaultTag : Text) (expression : Option Text)

mutual

def Segment.nodes : Segment → Except Failure (List Node)
  | .leaf source =>
    match Leaf.expand defaultTag expression source with
    | .ok n => .ok [n]
    | .error r => .error (.rejected r)
  | .group _ body => chainNodes body

def Chain.node : Chain → Except Failure Node
  | ⟨source, levels⟩ => do composeChain expression source (← levelNodes levels)

/-- The nodes of sibling chains, one for each. -/
def chainNodes : List Chain → Except Failure (List Node)
  | [] => .ok []
  | c :: cs => do
    let n ← c.node
    let ns ← chainNodes cs
    return n :: ns

def levelNodes : List Segment → Except Failure (List (List Node))
  | [] => .ok []
  | s :: ss => do
    let ns ← s.nodes
    let nss ← levelNodes ss
    return ns :: nss

end

mutual

/-- The groups that evaluation enters, in order, up to the first failure. -/
def Segment.entered : Segment → List Text
  | .leaf _ => []
  | .group key body => key :: chainsEntered body

def Chain.entered : Chain → List Text
  | ⟨_, levels⟩ => levelsEntered levels

def chainsEntered : List Chain → List Text
  | [] => []
  | c :: cs =>
    c.entered ++ match c.node defaultTag expression with
      | .ok _ => chainsEntered cs
      | .error _ => []

def levelsEntered : List Segment → List Text
  | [] => []
  | s :: ss =>
    s.entered ++ match s.nodes defaultTag expression with
      | .ok _ => levelsEntered ss
      | .error _ => []

end

end

/-- A step of an expansion, for those who want to watch it. -/
inductive Step where
  | grouped (token inner : Text)
  | unbalanced (expression : Text)
  | flattened (expression flat : Text) (groups : Nat)
  | entered (token : Text)
  deriving Repr, DecidableEq

namespace Step

/-- The part of the program that a step is logged under. -/
def topic : Step → Text
  | grouped .. | unbalanced .. => "emmet_elements.core.expand.grouping"
  | flattened .. | entered .. => "emmet_elements.core.expand.expand_emmet"

end Step

def unbalancedMessage (expression : Text) : Text :=
  "unbalanced parentheses left as literal text in " ++ Text.quoted expression

def Step.message : Step → Text
  | grouped token inner =>
    "group " ++ token ++ " -> " ++ Text.quoted inner
  | unbalanced e => unbalancedMessage e
  | flattened e flat n =>
    "flattened " ++ Text.quoted e ++ " -> " ++ Text.quoted flat ++ " (" ++
      Text.decimal n ++ " groups)"
  | entered token => "resolving group " ++ token

/-- Stray parentheses were left in this expression as literal text. -/
structure Warning where
  expression : Text
  deriving Repr, DecidableEq

def Warning.message (w : Warning) : Text :=
  unbalancedMessage w.expression

/-- A strict check rejects an expression with stray parentheses, a lenient one warns. -/
def Extraction.check (g : Extraction) (expression : Text) (strict : Bool) :
    Except Rejection (List Warning) :=
  if g.isBalanced then .ok []
  else if strict then .error ⟨.unbalanced, some expression, some (g.restore g.flat)⟩
  else .ok [⟨expression⟩]

def Extraction.steps (g : Extraction) : List Step :=
  g.groups.map fun (token, inner) => .grouped token inner

structure Run (α : Type) where
  steps : List Step := []
  warnings : List Warning := []
  result : Except Failure α

/-- Evaluates the tree of an extraction. -/
def Extraction.evaluate (g : Extraction) (s : Settings) (expression : Text) :
    Run (List Node) :=
  match g.tree (some expression) with
  | .error r => { result := .error (.rejected r) }
  | .ok chains =>
    { steps := (chainsEntered s.defaultTag (some expression) chains).map .entered
      result := chainNodes s.defaultTag (some expression) chains }

/-- Expands an expression, with a number drawn for its tokens. -/
def run (s : Settings) (source : Text) (drawn : Nat := 0) : Run (List Node) :=
  let text := Text.normalize source
  match TokenSource.forText text s.placeholderBase drawn with
  | .error e => { result := .error e }
  | .ok tokens =>
    let g := extract tokens text
    match g.check text s.strictGrouping with
    | .error r => { steps := g.steps, result := .error (.rejected r) }
    | .ok warnings =>
      let rest := g.evaluate s text
      { steps := g.steps ++ warnings.map (fun w => .unbalanced w.expression) ++
          .flattened text g.flat g.groups.length :: rest.steps
        warnings
        result := rest.result }

/-- The nodes that an expression stands for, one for each of its siblings. -/
def expand (s : Settings) (source : Text) (drawn : Nat := 0) : Except Failure (List Node) :=
  (run s source drawn).result

/-- Expands an expression that is a single leaf: operators and parentheses are plain characters. -/
def expandSingle (s : Settings) (source : Text) : Except Rejection Node :=
  let text := Text.normalize source
  Leaf.expand s.defaultTag (some text) text

end Shorthand
