import Shorthand.Yaml.Content

/-!
# Merged mappings

A merge key brings the entries of another mapping, or of several, into a mapping, where they stand
before its own. The merge keys of those mappings count first. A mapping that is merged into itself
gives the entries that it has by then.
-/

namespace Shorthand

namespace Yaml

namespace Part

def tag : Part → Tag
  | scalar t _ | sequence t _ | mapping t _ => t

def withTag (t : Tag) : Part → Part
  | scalar _ s => scalar t s
  | sequence _ items => sequence t items
  | mapping _ entries => mapping t entries

def isMapping : Part → Bool
  | mapping .. => true
  | _ => false

def entries : Part → List (Nat × Nat)
  | mapping _ es => es
  | _ => []

def withEntries (es : List (Nat × Nat)) : Part → Part
  | mapping t _ => mapping t es
  | p => p

end Part

abbrev Parts := Array Part

namespace Parts

def tagAt (ps : Parts) (place : Nat) : Tag :=
  ps[place]?.elim .unknown Part.tag

def entriesAt (ps : Parts) (place : Nat) : List (Nat × Nat) :=
  ps[place]?.elim [] Part.entries

def isMergeKey (ps : Parts) (key : Nat) : Bool :=
  ps.tagAt key = .plain .merge

/-- What stands under the first merge key, and the entries without that key. -/
def takeMerge (ps : Parts) : List (Nat × Nat) → Option (Nat × List (Nat × Nat))
  | [] => none
  | (k, v) :: r =>
    if ps.isMergeKey k then some (v, r) else (ps.takeMerge r).map fun (w, s) => (w, (k, v) :: s)

def mergeCount (ps : Parts) : Nat :=
  ps.foldl (fun n p => n + p.entries.countP fun (k, _) => ps.isMergeKey k) 0

/-- A mark for a value is a text where it stands as the key of an entry. -/
def settleKey (ps : Parts) (key : Nat) : Parts :=
  if ps.tagAt key = .plain .value then ps.modify key (·.withTag (.plain .text)) else ps

end Parts

/-- Merging takes merge keys out of the mappings in a table of parts. -/
abbrev Merging := StateT Parts (Except Fault)

/-- Puts entries before those of a mapping, and gives them all. -/
def prepend (place : Nat) (taken : List (Nat × Nat)) : Merging (List (Nat × Nat)) := do
  let ps : Parts ← get
  let all := taken ++ ps.entriesAt place
  set (all.foldl (fun (ps : Parts) (k, _) => ps.settleKey k) (ps.modify place (·.withEntries all)))
  return all

/-- Takes the merge keys out of a mapping, of which there are at most `n` anywhere, and gives the
entries that they bring. Of several mappings under one key the last comes first. -/
def gather : Nat → Nat → Merging (List (Nat × Nat))
  | 0, _ => return []
  | n + 1, place => do
    let ps : Parts ← get
    match ps.takeMerge (ps.entriesAt place) with
    | none => return []
    | some (source, rest) =>
      set (ps.modify place (·.withEntries rest))
      let merged (other : Nat) : Merging (List (Nat × Nat)) := do
        if ps[other]?.any Part.isMapping then prepend other (← gather n other)
        else throw .malformed
      let taken ← match ps[source]? with
        | some (.sequence _ items) => pure (← items.mapM merged).reverse.flatten
        | _ => merged source
      return taken ++ (← gather n place)

/-- The entries of a mapping after all merge keys in it are taken out. -/
def flatten (place : Nat) : Merging (List (Nat × Nat)) := do
  prepend place (← gather (Parts.mergeCount (← get)) place)

end Yaml

end Shorthand
