import Shorthand.Diagnostic
import Shorthand.Entries
import Shorthand.Json.Reader
import Shorthand.Store.Document
import Shorthand.Text.Blank
import Shorthand.Text.Lower
import Shorthand.Yaml.Reader

/-!
# Batches

A file of many expressions: one on each line, or a list or a mapping in YAML or JSON. Expressions
without a name of their own are named by their position, which counts from one.
-/

namespace Shorthand

/-- Expressions in the order of their file, each after its name. -/
abbrev Batch := List (Text × Text)

namespace Batch

inductive Format where
  | lines
  | yaml
  | json
  deriving Repr, DecidableEq

/-- The format of a file by its suffix, in letters of either case. -/
def formatOf (p : Path) : Option Format :=
  let suffix := Text.lower p.suffix
  if suffix = ".txt" then some .lines
  else if suffix = ".yaml" || suffix = ".yml" then some .yaml
  else if suffix = ".json" then some .json
  else none

inductive Problem where
  | missing
  | unreadable (f : DocumentFault)
  | unsupported
  | yaml (f : Yaml.Fault)
  | json (f : Json.Fault) (source : Text)
  | item (n : Nat)
  | name
  | expression (name : Text)
  | shape
  deriving Repr, DecidableEq

namespace Problem

def code : Problem → Text
  | missing => "E_FILE_NOT_FOUND"
  | unreadable _ => "E_FILE_READ"
  | unsupported => "E_UNSUPPORTED_FORMAT"
  | yaml _ => "E_YAML_PARSE"
  | json .. => "E_JSON_PARSE"
  | item _ | name | expression _ => "E_INVALID_ENTRY"
  | shape => "E_INVALID_TOP_LEVEL"

/-- What is wrong with a file that is there. -/
def detail : Problem → Text
  | missing => []
  | unreadable f => f.message
  | unsupported => "supported formats are .txt, .yaml/.yml and .json"
  | yaml f => f.message
  | json f source => f.message source
  | item n => "entry " ++ Text.decimal n ++ " must be a string"
  | name => "expression names must be non-empty strings"
  | expression n => "expression '" ++ n ++ "' must be a string"
  | shape => "top-level document must be a list or a mapping"

def message (path : Path) : Problem → Text
  | missing => "file does not exist: " ++ path.toText
  | p => path.toText ++ ": " ++ p.detail

/-- The entry that a problem is about. -/
def segment : Problem → Option Text
  | item n => some (Text.decimal n)
  | expression n => some n
  | _ => none

def diagnostic (path : Path) (p : Problem) : Diagnostic :=
  ⟨p.code, p.message path, none, p.segment⟩

end Problem

/-- Names expressions by their positions, from `n` on. -/
def numbered (n : Nat) : List Text → Batch
  | [] => []
  | e :: r => (Text.decimal n, e) :: numbered (n + 1) r

/-- Blank lines, and lines that start with a number sign, are passed over. -/
def isExpression (line : Text) : Bool :=
  !line.isEmpty && !Text.startsWith line '#'

def ofLines (t : Text) : Batch :=
  numbered 1 (((Text.lines t).map Text.trim).filter isExpression)

def ofItems (n : Nat) : List Value → Except Problem Batch
  | [] => .ok []
  | v :: r =>
    match v.text? with
    | some e => (ofItems (n + 1) r).map ((Text.decimal n, e) :: ·)
    | none => .error (.item n)

/-- Blanks around a name do not count. A name that is there already keeps its place and takes the
new expression. -/
def addEntry (b : Batch) (entry : Value × Value) : Except Problem Batch :=
  match entry.1.text? with
  | none => .error .name
  | some name =>
    if (Text.trim name).isEmpty then .error .name
    else match entry.2.text? with
      | some e => .ok (Entries.put (Text.trim name) e b)
      | none => .error (.expression name)

def ofValue : Value → Except Problem Batch
  | .null => .ok []
  | .list items => ofItems 1 items
  | .map entries => entries.foldlM addEntry []
  | _ => .error .shape

/-- The batch that a text holds in some format. -/
def ofText (format : Format) (t : Text) : Except Problem Batch :=
  match format with
  | .lines => .ok (ofLines t)
  | .yaml =>
    match Yaml.read 1 t with
    | .ok v => ofValue v
    | .error f => .error (.yaml f)
  | .json =>
    match Json.read t with
    | .ok v => ofValue v
    | .error f => .error (.json f t)

/-- Why a batch is not loaded: its file is at fault, or the path cannot even be looked up. -/
inductive Failure where
  | problem (path : Path) (p : Problem)
  | file (f : FileFault)
  deriving Repr, DecidableEq

/-- Loads a batch. A file is read before its format is looked at. -/
def load (s : Store) (path : Text) : Except Failure Batch := do
  let p := Path.ofText path
  let fail {α : Type} (q : Problem) : Except Failure α := .error (.problem p q)
  match s.holds p with
  | .error f => throw (.file f)
  | .ok false => fail .missing
  | .ok true =>
    match s.document p with
    | .error f => fail (.unreadable f)
    | .ok t =>
      match formatOf p with
      | none => fail .unsupported
      | some format =>
        match ofText format t with
        | .ok b => return b
        | .error q => fail q

end Batch

end Shorthand
