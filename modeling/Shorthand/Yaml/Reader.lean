import Shorthand.Text.Base64
import Shorthand.Yaml.Merge
import Shorthand.Yaml.Scalar.Number
import Shorthand.Yaml.Scalar.Time
import Shorthand.Yaml.Token.Lexer

/-!
# YAML, read

The value of a document. Its parts are met one after the other. A scalar has its value then, and a
collection is filled after all that were met before it, so of several faults the one in the
outermost collection is reported, and of those the first.
-/

namespace Shorthand

namespace Yaml

/-! ### Scalars -/

def readBool (t : Text) : Except Fault Bool :=
  let word := Text.lower t
  if trueWords.contains word then .ok true
  else if falseWords.contains word then .ok false
  else .error (.truth word)

def readBinary (t : Text) : Except Fault (List UInt8) :=
  if t.any fun c => 128 ≤ c.toNat then .error .malformed
  else match Text.ofBase64 t with
    | some octets => .ok octets
    | none => .error .malformed

/-- How the scalars with a tag are read, if there are any. -/
def Tag.reader? : Tag → Option (Text → Except Fault Value)
  | plain .null => some fun _ => .ok .null
  | plain .bool => some fun t => (readBool t).map .bool
  | plain .int => some fun t => (readInt t).map .int
  | plain .float => some fun t => (readFloat t).map .float
  | plain .time => some fun t => (readMoment t).map .moment
  | plain .text => some fun t => .ok (.text t)
  | binary => some fun t => (readBinary t).map .octets
  | _ => none

/-- Where a mapping gives the scalar that it stands for: under the key that is an equals sign. -/
def Parts.scalarPlace? (ps : Parts) (place : Nat) : Option Nat :=
  ((ps.entriesAt place).find? fun (k, _) => ps.tagAt k = .plain .value).map (·.2)

/-- What a scalar spells out, or the one that a mapping gives for it. A mapping can give itself, so
there may be no end to the places in which a scalar is looked for. -/
def scalarText (ps : Parts) : Nat → Nat → Except Fault Text
  | 0, _ => .error .endless
  | n + 1, place =>
    match ps.scalarPlace? place, ps[place]? with
    | some v, _ => scalarText ps n v
    | none, some (.scalar _ t) => .ok t
    | none, _ => .error .malformed

/-- The value of a part with a tag that is not for collections. A point in time is read from a
scalar only. -/
def scalarAt (ps : Parts) (place : Nat) : Except Fault Value := do
  let tag := ps.tagAt place
  let some read := tag.reader? | throw .malformed
  let t ← scalarText ps (ps.size + 1) place
  if tag = .plain .time && ps[place]?.any Part.isMapping then throw .noTimeText
  read t

/-! ### Collections -/

/-- An empty collection, if the tag is for collections. -/
def Tag.empty? : Tag → Option Value
  | sequence | orderedMap | pairs => some (.list [])
  | mapping => some (.map [])
  | set => some (.set [])
  | _ => none

/-- What is known while a document is filled: its parts, of which the mappings lose their merge keys
on the way, the values of the parts that were met, and the collections among those in their order. A
collection has its value when all is filled; until then an empty one stands for it. -/
structure Filling where
  parts : Parts
  values : Array (Option Value)
  collections : Array Nat := #[]

abbrev Fill := StateT Filling (Except Fault)

/-- Meets a part; what was met before is left as it is. -/
def meet (place : Nat) : Fill Unit := do
  let s ← get
  if s.values[place]?.any Option.isNone then
    match (s.parts.tagAt place).empty? with
    | some v =>
      set { s with
        values := s.values.setIfInBounds place (some v), collections := s.collections.push place }
    | none =>
      let v ← scalarAt s.parts place
      set { s with values := s.values.setIfInBounds place (some v) }

/-- Meets an entry, of which the key is no collection. -/
def meetEntry (entry : Nat × Nat) : Fill Unit := do
  meet entry.1
  if ((← get).parts.tagAt entry.1).empty?.isSome then throw .malformed
  meet entry.2

/-- Meets a mapping of one entry, which stands for the pair of its key and its value. -/
def meetPair (place : Nat) : Fill Unit := do
  match (← get).parts[place]? with
  | some (.mapping _ [(k, v)]) =>
    meet k
    meet v
  | _ => throw .malformed

/-- Meets the members of a collection. -/
def fill (place : Nat) : Fill Unit := do
  let s ← get
  match s.parts[place]? with
  | some (.sequence .sequence items) => items.forM meet
  | some (.sequence .orderedMap items) | some (.sequence .pairs items) => items.forM meetPair
  | some (.mapping .mapping _) | some (.mapping .set _) => do
    let (entries, parts) ← (flatten place).run s.parts
    set { s with parts }
    entries.forM meetEntry
  | _ => throw .malformed

/-- Fills the collections from the one with some number on, of which there are at most `n`. -/
def fillFrom (number : Nat) : Nat → Fill Unit
  | 0 => return
  | n + 1 => do
    match (← get).collections[number]? with
    | some place =>
      fill place
      fillFrom (number + 1) n
    | none => return

namespace Filling

def valueAt (s : Filling) (place : Nat) : Value :=
  (s.values[place]?.join).getD .null

/-- The value of a part through some levels of collections; those further inside are left empty. -/
def unfold (s : Filling) : Nat → Nat → Value
  | 0, place => s.valueAt place
  | depth + 1, place =>
    match s.parts[place]? with
    | some (.sequence .sequence items) => .list (items.map (s.unfold depth))
    | some (.sequence .orderedMap items) | some (.sequence .pairs items) =>
      .list (items.map fun p =>
        .list ((s.parts.entriesAt p).flatMap fun (k, v) => [s.unfold depth k, s.unfold depth v]))
    | some (.mapping .mapping entries) =>
      .ofEntries (entries.map fun (k, v) => (s.valueAt k, s.unfold depth v))
    | some (.mapping .set entries) => .set (entries.map fun (k, _) => s.valueAt k)
    | _ => s.valueAt place

end Filling

/-- The value of the document that a text holds, through some levels of collections. A collection
can hold itself, so there may be no end of levels; those further inside are left empty. -/
def read (depth : Nat) (t : Text) : Except Fault Value := do
  let content ← Content.ofTokens (Tokens.ofText t)
  let count := content.parts.size
  let (_, s) ← (do
    meet content.root
    fillFrom 0 count : Fill Unit).run
      { parts := content.parts, values := Array.replicate count none }
  return s.unfold depth content.root

end Yaml

end Shorthand
