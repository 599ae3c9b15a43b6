import Shorthand.Html.Element

/-!
# Namespaces

A name that is written `{uri}local` belongs to a namespace. A document declares its namespaces on
its root, under well-known prefixes or under numbered ones.
-/

namespace Shorthand

namespace Html

/-- A name that starts with a brace and has no closing one. -/
structure UnclosedName where
  name : Text
  deriving Repr, DecidableEq

/-- The message does not tell the name, only that there are no two parts to it. -/
def UnclosedName.message (_ : UnclosedName) : Text :=
  "not enough values to unpack (expected 2, got 1)"

/-- The namespace of a name, if it has one, and its local part. -/
def splitName (name : Text) : Except UnclosedName (Option Text × Text) :=
  match name with
  | '{' :: r =>
    match Text.cutLast '}' r with
    | some (uri, localName) => .ok (some uri, localName)
    | none => .error ⟨name⟩
  | _ => .ok (none, name)

def address (host path : String) : Text :=
  "http:" ++ "//" ++ host ++ "/" ++ path

/-- The namespaces that have a prefix of their own. -/
def wellKnown : List (Text × Text) :=
  [(address "www.w3.org" "XML/1998/namespace", "xml"),
   (address "www.w3.org" "1999/xhtml", "html"),
   (address "www.w3.org" "1999/02/22-rdf-syntax-ns#", "rdf"),
   (address "schemas.xmlsoap.org" "wsdl/", "wsdl"),
   (address "www.w3.org" "2001/XMLSchema", "xs"),
   (address "www.w3.org" "2001/XMLSchema-instance", "xsi"),
   (address "purl.org" "dc/elements/1.1/", "dc")]

/-- The declared namespaces with their prefixes, in order of first use. -/
abbrev Declared := List (Text × Text)

/-- Declares the namespace of a name. The prefix `xml` needs no declaration. -/
def declare (d : Declared) (name : Text) : Except UnclosedName Declared := do
  match ← splitName name with
  | (none, _) => return d
  | (some uri, _) =>
    if (d.lookup uri).isSome then return d
    let p := (wellKnown.lookup uri).getD ("ns" ++ Text.decimal d.length)
    return if p = "xml" then d else d ++ [(uri, p)]

mutual

/-- The names of an element and of those inside of it, in document order. -/
def names : Element → List Text
  | ⟨tag, attributes, _, children⟩ => tag :: attributes.map (·.1) ++ namesOfAll children

def namesOfAll : List Element → List Text
  | [] => []
  | e :: es => names e ++ namesOfAll es

end

def declarations (e : Element) : Except UnclosedName Declared :=
  (names e).foldlM declare []

/-- A name as the document writes it. -/
def written (d : Declared) (name : Text) : Text :=
  match splitName name with
  | .ok (some uri, localName) => (d.lookup uri).getD "xml" ++ ":" ++ localName
  | _ => name

end Html

end Shorthand
