import Shorthand.Node

/-!
# Outlines

A node on one line, written as shorthand again, and a forest with one line for each node.
-/

namespace Shorthand

namespace Node

def attributeLabel : Text × Text → Text
  | (name, value) => name ++ "=\"" ++ value ++ "\""

/-- A node as shorthand, its children left out. -/
def label (n : Node) : Text :=
  let id : Text := n.id.elim [] ('#' :: ·)
  let classes : Text := n.classes.flatMap ('.' :: ·)
  let attributes : Text :=
    if n.attributes.isEmpty then []
    else "[" ++ (" " : Text).intercalate (n.attributes.map attributeLabel) ++ "]"
  let text : Text := n.text.elim [] fun t => "\x7b" ++ t ++ "\x7d"
  n.tag ++ id ++ classes ++ attributes ++ text

def indentation (indent : Text) (depth : Nat) : Text :=
  (List.replicate depth indent).flatten

mutual

def outlineLines (indent : Text) (depth : Nat) : Node → List Text
  | ⟨tag, id, classes, attributes, text, children⟩ =>
    (indentation indent depth ++ label ⟨tag, id, classes, attributes, text, []⟩) ::
      forestLines indent (depth + 1) children

def forestLines (indent : Text) (depth : Nat) : List Node → List Text
  | [] => []
  | n :: ns => outlineLines indent depth n ++ forestLines indent depth ns

end

end Node

/-- One line for each node in pre-order, indented by its depth. -/
def outline (indent : Text) (nodes : List Node) : Text :=
  ("\n" : Text).intercalate (Node.forestLines indent 0 nodes)

end Shorthand
