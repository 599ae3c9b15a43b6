import Shorthand.Entries
import Shorthand.Node

/-!
# Elements

An element of a markup document has each attribute once. Shorthand may name one several times: the
identifier is written first, then the classes, then the attributes in order, and the last write
decides the value while the first decides the place.
-/

namespace Shorthand

structure Element where
  tag : Text
  attributes : List (Text × Text) := []
  text : Option Text := none
  children : List Element := []
  deriving Inhabited

namespace Element

def nonEmpty (t : Option Text) : Option Text :=
  t.filter fun t => !t.isEmpty

/-- Everything that a node says about attributes, in the order of writing. -/
def written (id : Option Text) (classes : List Text) (attributes : List (Text × Text)) :
    List (Text × Text) :=
  let idPair : List (Text × Text) := (nonEmpty id).elim [] fun i => [("id", i)]
  let classPair : List (Text × Text) :=
    if classes.isEmpty then [] else [("class", (" " : Text).intercalate classes)]
  idPair ++ classPair ++ attributes

mutual

def ofNode : Node → Element
  | ⟨tag, id, classes, attributes, text, children⟩ =>
    ⟨tag, Entries.putAll (written id classes attributes), nonEmpty text, ofNodes children⟩

def ofNodes : List Node → List Element
  | [] => []
  | n :: ns => ofNode n :: ofNodes ns

end

end Element

end Shorthand
