import Shorthand.Entries
import Shorthand.Text.Utf8

/-!
# Files

The files that a command can see. A path is written as the names that lead to a file, from the
working directory or from the root; empty names and single dots say nothing and are dropped.
-/

namespace Shorthand

inductive Entry where
  | file (content : List UInt8)
  | folder
  deriving Repr, DecidableEq

/-- Entries, each after the names that lead to it from the root, and the working directory. -/
structure Store where
  entries : List (List Text × Entry) := []
  here : List Text := []

/-- A path starts at the working directory unless slashes stand before its names. -/
structure Path where
  names : List Text
  root : Text := []
  deriving Repr, DecidableEq

namespace Path

/-- Two slashes at the start are kept, more than two count as one. -/
def rootOf (t : Text) : Text :=
  match t.takeWhile fun c : CodePoint => c == '/' with
  | [] => []
  | ['/', '/'] => "//"
  | _ => "/"

def ofText (t : Text) : Path :=
  { names := (t.splitOn (.char '/')).filter fun n => !n.isEmpty && n != "."
    root := rootOf t }

/-- The path without what can be left out. -/
def toText (p : Path) : Text :=
  if p.root.isEmpty && p.names.isEmpty then "." else p.root ++ ("/" : Text).intercalate p.names

def name (p : Path) : Text :=
  p.names.getLast?.getD []

/-- The end of the name from its last dot on, unless the name starts or ends there. -/
def suffix (p : Path) : Text :=
  match Text.cutLast '.' p.name with
  | some (_ :: _, c :: r) => '.' :: c :: r
  | _ => []

def parent (p : Path) : Path :=
  { p with names := p.names.dropLast }

end Path

inductive FileProblem where
  | missing
  | exists
  | notFolder
  | isFolder
  | nameTooLong
  deriving Repr, DecidableEq

/-- A file that cannot be used, by the path that was asked for. -/
inductive FileFault where
  | system (problem : FileProblem) (path : Text)
  | nullCharacter
  deriving Repr, DecidableEq

namespace FileProblem

def code : FileProblem → Nat
  | missing => 2
  | «exists» => 17
  | notFolder => 20
  | isFolder => 21
  | nameTooLong => 36

def message : FileProblem → Text
  | missing => "No such file or directory"
  | «exists» => "File exists"
  | notFolder => "Not a directory"
  | isFolder => "Is a directory"
  | nameTooLong => "File name too long"

end FileProblem

def FileFault.message : FileFault → Text
  | system p path =>
    "[Errno " ++ Text.decimal p.code ++ "] " ++ p.message ++ ": " ++
      Text.quoted path
  | nullCharacter => "embedded null byte"

namespace Store

/-- What stands at some place. A folder is also what something is below of, and so is the working
directory. -/
def find (s : Store) (names : List Text) : Option Entry :=
  match s.entries.lookup names with
  | some e => some e
  | none =>
    if names.isPrefixOf s.here || s.entries.any fun (n, _) => names.isPrefixOf n then some .folder
    else none

/-- The most octets of a name. -/
def nameLimit : Nat :=
  255

/-- The most octets of a path. -/
def pathLimit : Nat :=
  4095

/-- Goes from a place to one with a name in it, or up. -/
def step (s : Store) (names : List Text) (name : Text) : Except FileProblem (List Text) :=
  match s.find names with
  | none => .error .missing
  | some (.file _) => .error .notFolder
  | some .folder =>
    if name = ".." then .ok names.dropLast
    else if nameLimit < Text.octetCount name then .error .nameTooLong
    else .ok (names ++ [name])

/-- The place that a path leads to. Nothing need stand there. -/
def locate (s : Store) (p : Path) : Except FileProblem (List Text) :=
  if pathLimit < Text.octetCount p.toText then .error .nameTooLong
  else p.names.foldlM s.step (if p.root.isEmpty then s.here else [])

def lookupPath (s : Store) (p : Path) : Except FileFault Entry :=
  if p.toText.contains '\x00' then .error .nullCharacter
  else match s.locate p with
    | .error e => .error (.system e p.toText)
    | .ok names =>
      match s.find names with
      | some e => .ok e
      | none => .error (.system .missing p.toText)

/-- The content of a file. -/
def read (s : Store) (p : Path) : Except FileFault (List UInt8) := do
  match ← s.lookupPath p with
  | .file content => return content
  | .folder => throw (.system .isFolder p.toText)

def put (s : Store) (names : List Text) (e : Entry) : Store :=
  { s with entries := Entries.put names e s.entries }

/-- Makes a folder where nothing is; one that is there already is no fault. -/
def makeFolder (s : Store) (p : Path) : Except FileFault Store :=
  match s.locate p with
  | .error e => .error (.system e p.toText)
  | .ok names =>
    match s.find names with
    | some .folder => .ok s
    | some (.file _) => .error (.system .exists p.toText)
    | none => .ok (s.put names .folder)

/-- Makes a folder after those that it stands in, where these are missing. -/
def makeFolders (s : Store) (p : Path) : Nat → Except FileFault Store
  | 0 => s.makeFolder p
  | n + 1 =>
    match s.makeFolder p with
    | .error (.system .missing _) => do (← s.makeFolders p.parent n).makeFolder p
    | result => result

/-- Writes a file, making the folders on its way. -/
def write (s : Store) (p : Path) (content : List UInt8) : Except FileFault Store := do
  if p.toText.contains '\x00' then throw .nullCharacter
  let s ← s.makeFolders p.parent p.names.length
  match s.locate p with
  | .error e => throw (.system e p.toText)
  | .ok names =>
    match s.find names with
    | some .folder => throw (.system .isFolder p.toText)
    | _ => return s.put names (.file content)

/-- The files of a store that another one does not have with the same content. -/
def changedFrom (s old : Store) : List (List Text × List UInt8) :=
  s.entries.filterMap fun (names, e) => match e with
    | .file content =>
      if old.entries.lookup names = some (.file content) then none else some (names, content)
    | .folder => none

end Store

end Shorthand
