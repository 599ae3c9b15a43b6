import Shorthand.Text.Basic

/-!
# Nodes

An element of the tree that an expression stands for. An identifier or a text that is present and
empty differs from one that is absent; classes and attributes keep their order and repetitions.
-/

namespace Shorthand

structure Node where
  tag : Text
  id : Option Text := none
  classes : List Text := []
  attributes : List (Text × Text) := []
  text : Option Text := none
  children : List Node := []
  deriving Inhabited, BEq

namespace Node

/-- A node with its own fields and no children. -/
def bare (n : Node) : Node :=
  { n with children := [] }

/-- Puts nodes after the children that a node already has. -/
def adopt (n : Node) (more : List Node) : Node :=
  { n with children := n.children ++ more }

@[simp] theorem bare_adopt (n : Node) (more : List Node) : (n.adopt more).bare = n.bare := rfl

@[simp] theorem children_adopt (n : Node) (more : List Node) :
    (n.adopt more).children = n.children ++ more := rfl

end Node

end Shorthand
