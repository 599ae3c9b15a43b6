import Shorthand.Node

/-!
# Plain data

The form in which nodes are handed to other programs. Fields that say nothing are left out: an
absent identifier or text, and empty lists.
-/

namespace Shorthand

inductive Data where
  | null
  | bool (b : Bool)
  | number (n : Nat)
  | text (t : Text)
  | list (items : List Data)
  | record (entries : List (Text × Data))
  deriving Inhabited

namespace Data

def pair : Text × Text → Data
  | (name, value) => list [text name, text value]

/-- A field that is left out if its list is empty. -/
def listField (key : Text) (items : List Data) : List (Text × Data) :=
  if items.isEmpty then [] else [(key, list items)]

def textField (key : Text) (value : Option Text) : List (Text × Data) :=
  match value with
  | some t => [(key, text t)]
  | none => []

mutual

/-- The fields come in a fixed order, the children last. -/
def ofNode : Node → Data
  | ⟨tag, id, classes, attributes, content, children⟩ =>
    record (("tag", text tag) ::
      (textField "id" id ++
        (listField "classes" (classes.map text) ++
          (listField "attributes" (attributes.map pair) ++
            (textField "text" content ++
              listField "children" (ofNodes children))))))

def ofNodes : List Node → List Data
  | [] => []
  | n :: ns => ofNode n :: ofNodes ns

end

end Data

end Shorthand
