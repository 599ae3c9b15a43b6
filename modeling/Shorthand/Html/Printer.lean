import Shorthand.Html.Namespace
import Shorthand.Text.Lower

/-!
# HTML, written

Elements as HTML text. Some elements never have an end tag, and the text of scripts and style
sheets is written as it is.
-/

namespace Shorthand

namespace Html

/-- The elements that are written without an end tag. -/
def voidTags : List Text :=
  ["area", "base", "basefont", "br", "col", "embed", "frame", "hr", "img", "input", "isindex",
    "link", "meta", "param", "source", "track", "wbr"]

def rawTags : List Text :=
  ["script", "style"]

def escapeText (c : CodePoint) : Text :=
  if c = '&' then "&amp;"
  else if c = '<' then "&lt;"
  else if c = '>' then "&gt;"
  else [c]

def escapeValue (c : CodePoint) : Text :=
  if c = '&' then "&amp;"
  else if c = '>' then "&gt;"
  else if c = '"' then "&quot;"
  else [c]

/-- Namespaces are escaped as XML is, line breaks and tabs included. -/
def escapeNamespace (c : CodePoint) : Text :=
  if c = '<' then "&lt;"
  else if c = '\r' then "&#13;"
  else if c = '\n' then "&#10;"
  else if c = '\t' then "&#09;"
  else escapeValue c

def assignment (name value : Text) : Text :=
  " " ++ name ++ "=\"" ++ value ++ "\""

/-- The declarations on a root, sorted by prefix. -/
def declarationText (d : Declared) : Text :=
  (d.mergeSort fun a b => Text.atMost a.2 b.2).flatMap fun (uri, p) =>
    assignment ("xmlns:" ++ p) (uri.flatMap escapeNamespace)

mutual

/-- Writes an element; `head` is what its start tag says before the attributes. -/
def write (d : Declared) (head : Text) : Element → Text
  | ⟨tag, attributes, text, children⟩ =>
    let name := written d tag
    let key := Text.lower name
    let pairs := attributes.flatMap fun (k, v) => assignment (written d k) (v.flatMap escapeValue)
    let content : Text := match text with
      | some t => if rawTags.contains key then t else t.flatMap escapeText
      | none => []
    let ending : Text := if voidTags.contains key then [] else "</" ++ name ++ ">"
    "<" ++ name ++ head ++ pairs ++ ">" ++ content ++ writeAll d children ++ ending

def writeAll (d : Declared) : List Element → Text
  | [] => []
  | e :: es => write d [] e ++ writeAll d es

end

def document (e : Element) : Except UnclosedName Text := do
  let d ← declarations e
  return write d (declarationText d) e

end Html

/-- Each node becomes a document of its own. -/
def toHtml (nodes : List Node) : Except Html.UnclosedName Text := do
  return (← (Element.ofNodes nodes).mapM Html.document).flatten

end Shorthand
