import Shorthand.Outline
import Shorthand.Text.Wrap

/-!
# Tree views

A forest as lines in which guides lead from each node to its children. The lines are no wider than
the screen: labels are wrapped, with the guides repeated before what follows.
-/

namespace Shorthand

namespace TreeView

def screenWidth : Nat :=
  80

/-- The width of a guide, which is the indentation of one level. -/
def guideWidth : Nat :=
  4

/-- Some control characters would move the cursor and are left out. -/
def withoutControls (t : Text) : Text :=
  t.filter fun c => !(c == '\x07' || c == '\x08' || c == '\x0b' || c == '\x0c' || c == '\r')

/-- The lines of a label at some depth. There are none where the guides leave no room. -/
def labelLines (depth : Nat) (label : Text) : List Text :=
  let room := screenWidth - guideWidth * depth
  if room = 0 then [] else Text.wrap room (withoutControls label)

/-- The guide to a node, and the guide past it to its later siblings. -/
def guideTo (last : Bool) : Text :=
  if last then "└── " else "├── "

def guidePast (last : Bool) : Text :=
  if last then "    " else "│   "

/-- Puts the guide to a node before its first line and the guide past it before the others. -/
def guided (guides : Text) (last : Bool) : List Text → List Text
  | [] => []
  | l :: ls =>
    (guides ++ guideTo last ++ l) :: ls.map fun m => guides ++ guidePast last ++ m

mutual

def nodeLines (guides : Text) (depth : Nat) (last : Bool) : Node → List Text
  | ⟨tag, id, classes, attributes, text, children⟩ =>
    guided guides last
        (labelLines depth (Node.label ⟨tag, id, classes, attributes, text, []⟩)) ++
      siblingLines (guides ++ guidePast last) (depth + 1) children

def siblingLines (guides : Text) (depth : Nat) : List Node → List Text
  | [] => []
  | n :: ns => nodeLines guides depth ns.isEmpty n ++ siblingLines guides depth ns

end

end TreeView

/-- The view of a forest, under a line that counts its roots. -/
def treeView (nodes : List Node) : Text :=
  let lines :=
    (Text.decimal nodes.length ++ " root(s)") :: TreeView.siblingLines [] 1 nodes
  lines.flatMap (· ++ "\n")

end Shorthand
