import Shorthand.Yaml.Scalar
import Shorthand.Yaml.Token

/-!
# The content of a document

Scalars, sequences and mappings, each with the tag that says what it stands for, and how they are
read from tokens. Since a reference to an anchor stands for the very part that bears the anchor, a
part can be in several places, even inside of itself. So a document is a table of parts, which know
each other by their places in it.
-/

namespace Shorthand

namespace Yaml

inductive Tag where
  | plain (kind : ScalarKind)
  | binary
  | sequence
  | mapping
  | orderedMap
  | pairs
  | set
  | unknown
  deriving Repr, DecidableEq

inductive Part where
  | scalar (tag : Tag) (text : Text)
  | sequence (tag : Tag) (items : List Nat)
  | mapping (tag : Tag) (entries : List (Nat × Nat))
  deriving Repr, DecidableEq

structure Content where
  parts : Array Part
  root : Nat

def standardTags : Text :=
  "tag:yaml.org,2002:"

namespace Tag

def named : List (Text × Tag) :=
  [("null", plain .null), ("bool", plain .bool), ("int", plain .int),
   ("float", plain .float), ("timestamp", plain .time),
   ("merge", plain .merge), ("value", plain .value), ("str", plain .text),
   ("binary", binary), ("seq", sequence), ("map", mapping),
   ("omap", orderedMap), ("pairs", pairs), ("set", set)]

/-- The tag that a resolved name stands for. -/
def ofName (name : Text) : Tag :=
  if standardTags.isPrefixOf name then (named.lookup (name.drop standardTags.length)).getD unknown
  else unknown

end Tag

namespace Content

/-- What is left of the tokens and what may come after them, the parts so far, the anchors that they
bear, and the handles of tags. -/
structure Reader where
  tokens : List Token
  fault : Option Fault
  parts : Array Part := #[]
  anchors : List (Text × Nat) := []
  handles : List (Text × Text) := []

abbrev Reading := StateT Reader (Except Fault)

def malformed {α : Type} : Reading α :=
  throw .malformed

/-- The next token. A fault of the stream counts only where its token is looked for. -/
def peek : Reading (Option Token) := do
  let r ← get
  match r.tokens, r.fault with
  | t :: _, _ => return some t
  | [], some f => throw f
  | [], none => return none

def skip : Reading Unit :=
  modify fun r => { r with tokens := r.tokens.tail }

/-- Puts a part into the table and gives its place. -/
def add (p : Part) : Reading Nat := do
  let r ← get
  set { r with parts := r.parts.push p }
  return r.parts.size

/-- What stands where nothing is written. -/
def nothing : Reading Nat :=
  add (.scalar (.plain .null) [])

/-- Whether the next token is one of some. -/
def atAny (ts : List Token) : Reading Bool := do
  return (← peek).any ts.contains

/-- The anchor and the name of the tag that are written before some content. -/
structure Properties where
  anchor : Option Text := none
  tag : Option Text := none

/-- The name of a tag after its handle is replaced. -/
def tagName (handle : Option Text) (suffix : Text) : Reading Text := do
  match handle with
  | none => return suffix
  | some h =>
    match (← get).handles.lookup h with
    | some start => return start ++ suffix
    | none => malformed

def properties : Reading Properties := do
  match ← peek with
  | some (.anchor a) =>
    skip
    match ← peek with
    | some (.tag h s) =>
      skip
      return ⟨a, ← tagName h s⟩
    | _ => return ⟨a, none⟩
  | some (.tag h s) =>
    skip
    match ← peek with
    | some (.anchor a) =>
      skip
      return ⟨a, ← tagName h s⟩
    | _ => return ⟨none, ← tagName h s⟩
  | _ => return {}

namespace Properties

def isEmpty (p : Properties) : Bool :=
  p.anchor.isNone && p.tag.isNone

/-- The tag that is written; an exclamation mark alone names none. -/
def ownTag (p : Properties) : Option Tag :=
  if p.tag == some (Text.ofString "!") then none else p.tag.map Tag.ofName

/-- A scalar takes its tag from its text if it is plain or bears an exclamation mark alone. -/
def scalarPart (p : Properties) (text : Text) (isPlain : Bool) : Part :=
  let kind := if isPlain || p.tag.isSome then kindOf text else .text
  .scalar (p.ownTag.getD (.plain kind)) text

/-- An anchor can be set only once. -/
def checkAnchor (p : Properties) : Reading Unit := do
  let anchors := (← get).anchors
  if p.anchor.any fun a => (anchors.lookup a).isSome then malformed

def setAnchor (p : Properties) (place : Nat) : Reading Unit :=
  match p.anchor with
  | some a => modify fun r => { r with anchors := (a, place) :: r.anchors }
  | none => return

def scalar (p : Properties) (text : Text) (isPlain : Bool) : Reading Nat := do
  let place ← add (p.scalarPart text isPlain)
  p.setAnchor place
  return place

/-- A collection of which the members are read next. They can already refer to it. -/
def collection {α : Type} (p : Properties) (make : List α → Part) (members : Reading (List α)) :
    Reading Nat := do
  let place ← add (make [])
  p.setAnchor place
  let part := make (← members)
  modify fun r => { r with parts := r.parts.setIfInBounds place part }
  return place

def sequence (p : Properties) (items : Reading (List Nat)) : Reading Nat :=
  p.collection (.sequence (p.ownTag.getD .sequence)) items

def mapping (p : Properties) (entries : Reading (List (Nat × Nat))) : Reading Nat :=
  p.collection (.mapping (p.ownTag.getD .mapping)) entries

end Properties

/-- Where content stands: in a flow collection, in a block, or as a key or a value of a block
mapping, where a sequence needs no indentation. -/
inductive Context where
  | flow
  | block
  | entry
  deriving Repr, DecidableEq

mutual

/-- The part that starts here, through at most `n` levels of reading. -/
def read (context : Context) : Nat → Reading Nat
  | 0 => malformed
  | n + 1 => do
    let p ← properties
    let next ← peek
    p.checkAnchor
    match next, context with
    | some (.alias name), _ =>
      if !p.isEmpty then malformed
      skip
      match (← get).anchors.lookup name with
      | some place => return place
      | none => malformed
    | some (.scalar text isPlain), _ =>
      skip
      p.scalar text isPlain
    | some .openSequence, _ =>
      skip
      p.sequence (flowItems true n)
    | some .openMapping, _ =>
      skip
      p.mapping (flowEntries true n)
    | some .sequenceStart, .block | some .sequenceStart, .entry =>
      skip
      p.sequence (blockItems n)
    | some .mappingStart, .block | some .mappingStart, .entry =>
      skip
      p.mapping (blockEntries n)
    | some .entry, .entry => p.sequence (bareItems n)
    | _, _ =>
      if p.isEmpty then malformed
      p.scalar [] true

/-- A part that may be left out before some tokens. -/
def readUnless (context : Context) (stops : List Token) : Nat → Reading Nat
  | 0 => malformed
  | n + 1 => do
    if ← atAny stops then nothing else read context n

/-- A value after its colon, both of which may be left out. -/
def readValue (context : Context) (stops : List Token) : Nat → Reading Nat
  | 0 => malformed
  | n + 1 => do
    if ← atAny [.value] then
      skip
      readUnless context stops n
    else nothing

/-- The items of a block sequence, and its end. -/
def blockItems : Nat → Reading (List Nat)
  | 0 => malformed
  | n + 1 => do
    match ← peek with
    | some .entry =>
      skip
      let c ← readUnless .block [.entry, .blockEnd] n
      return c :: (← blockItems n)
    | some .blockEnd =>
      skip
      return []
    | _ => malformed

/-- The items of a sequence that has no indentation of its own. -/
def bareItems : Nat → Reading (List Nat)
  | 0 => malformed
  | n + 1 => do
    if ← atAny [.entry] then
      skip
      let c ← readUnless .block [.entry, .key, .value, .blockEnd] n
      return c :: (← bareItems n)
    else return []

/-- The entries of a block mapping, and its end. -/
def blockEntries : Nat → Reading (List (Nat × Nat))
  | 0 => malformed
  | n + 1 => do
    match ← peek with
    | some .key =>
      skip
      let k ← readUnless .entry [.key, .value, .blockEnd] n
      let v ← readValue .entry [.key, .value, .blockEnd] n
      return (k, v) :: (← blockEntries n)
    | some .blockEnd =>
      skip
      return []
    | _ => malformed

/-- The items of a flow sequence, and its end. An item may be a mapping of one entry. -/
def flowItems (first : Bool) : Nat → Reading (List Nat)
  | 0 => malformed
  | n + 1 => do
    if !first && !(← atAny [.closeSequence]) then
      if ← atAny [.comma] then skip else malformed
    match ← peek with
    | some .closeSequence =>
      skip
      return []
    | some .key =>
      skip
      let k ← readUnless .flow [.value, .comma, .closeSequence] n
      let v ← readValue .flow [.comma, .closeSequence] n
      let entry ← add (.mapping .mapping [(k, v)])
      return entry :: (← flowItems false n)
    | _ =>
      let c ← read .flow n
      return c :: (← flowItems false n)

/-- The entries of a flow mapping, and its end. -/
def flowEntries (first : Bool) : Nat → Reading (List (Nat × Nat))
  | 0 => malformed
  | n + 1 => do
    if !first && !(← atAny [.closeMapping]) then
      if ← atAny [.comma] then skip else malformed
    match ← peek with
    | some .closeMapping =>
      skip
      return []
    | some .key =>
      skip
      let k ← readUnless .flow [.value, .comma, .closeMapping] n
      let v ← readValue .flow [.comma, .closeMapping] n
      return (k, v) :: (← flowEntries false n)
    | _ =>
      let k ← read .flow n
      let v ← nothing
      return (k, v) :: (← flowEntries false n)

end

/-! ### Documents -/

def defaultHandles : List (Text × Text) :=
  [("!", "!"), ("!!", standardTags)]

/-- The directives of a document: at most one on the version, of which the major number is one, and
at most one for each handle. -/
def handlesOf (versioned : Bool) (handles : List (Text × Text)) :
    List Token → Except Fault (List (Text × Text) × List Token)
  | .directive (.version major _) :: r =>
    if versioned || major != 1 then .error .malformed else handlesOf true handles r
  | .directive (.tag handle start) :: r =>
    if (handles.lookup handle).isSome then .error .malformed
    else handlesOf versioned ((handle, start) :: handles) r
  | .directive .other :: r => handlesOf versioned handles r
  | r => .ok (handles ++ defaultHandles, r)

/-- The directives of a document and the mark at its start. -/
def openDocument : Reading Unit := do
  let r ← get
  let (handles, tokens) ← handlesOf false [] r.tokens
  set { r with tokens, handles }
  if ← atAny [.documentStart] then skip else malformed

/-- The outermost part of a document after its start. -/
def outermost : Reading Nat := do
  read .block (4 * (← get).tokens.length + 4)

/-- The outermost part of the first document. No document at all is one with nothing in it. -/
def document : Reading Nat := do
  match ← peek with
  | none => nothing
  | some (.directive _) | some .documentStart =>
    openDocument
    match ← peek with
    | none | some (.directive _) | some .documentStart | some .documentEnd => nothing
    | _ => outermost
  | _ =>
    modify fun r => { r with handles := defaultHandles }
    outermost

/-- The end of the stream, before which only marks for the ends of documents may stand. -/
def endOfStream : Reading Unit := do
  modify fun r => { r with tokens := r.tokens.dropWhile (· = .documentEnd) }
  if (← peek).isSome then
    openDocument
    malformed

/-- The content of the only document. -/
def ofTokens (ts : Tokens) : Except Fault Content := do
  let (root, r) ← (do
    let root ← document
    endOfStream
    return root : Reading Nat).run { tokens := ts.list, fault := ts.fault }
  return { parts := r.parts, root }

end Content

end Yaml

end Shorthand
