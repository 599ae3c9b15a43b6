import Shorthand.Batch
import Shorthand.Command
import Shorthand.Command.Outcome
import Shorthand.Json.Printer
import Shorthand.Lint
import Shorthand.TreeView
import Shorthand.Yaml.Printer

/-!
# Running commands

The outcome of each command, given the files that it can see.
-/

namespace Shorthand

namespace Command

/-! ### What all commands share -/

/-- A line of output. Printing is taken to succeed with any text, though standard output cannot
encode half of a surrogate pair. -/
def printed (t : Text) : Ending :=
  .printed (Text.withoutSequences (t ++ "\n")) 0

def unknownFormat (format : Text) (known : List Text) : Ending :=
  let message := "unknown format: " ++ format ++ " (choose one of: " ++
    (", " : Text).intercalate known ++ ")"
  .reported [⟨"E_UNKNOWN_FORMAT", message, none, none⟩] 2

def expandFailure : Failure → Ending
  | .rejected r => .reported [r.diagnostic] 2
  | f => .interrupted (.failure f)

/-- How a command ends for which the settings in a file cannot be loaded. -/
def settingsFailure (path : Option Text) : Settings.Failure → Ending
  | .problem p => .reported [⟨"E_CONFIG_FILE_INVALID", p.message, none, none⟩] 2
  | .document (.file (.system .missing _)) =>
    let message := "config file not found: " ++ path.getD []
    .reported [⟨"E_CONFIG_FILE_NOT_FOUND", message, none, none⟩] 1
  | .document f => .interrupted (.document f)
  | .longKey => .interrupted .longKey
  | .scalar f => .interrupted (.scalar f)

def dataOf (nodes : List Node) : Data :=
  .list (Data.ofNodes nodes)

/-! ### Expanding one expression -/

inductive ExpandFormat where
  | text
  | json
  | yaml
  | html
  | tree
  deriving Repr, DecidableEq

def expandFormats : List (Text × ExpandFormat) :=
  [("text", .text), ("json", .json), ("yaml", .yaml), ("html", .html), ("tree", .tree)]

def withoutFinalBreaks (t : Text) : Text :=
  (t.reverse.dropWhile fun c : CodePoint => c == '\n').reverse

def showNodes (nodes : List Node) : ExpandFormat → Ending
  | .text => printed (outline "  " nodes)
  | .json => printed ((dataOf nodes).toJson false)
  | .yaml => printed (withoutFinalBreaks (dataOf nodes).toYaml)
  | .html =>
    match toHtml nodes with
    | .ok t => printed t
    | .error n => .interrupted (.name n)
  | .tree => .printed (treeView nodes) 0

/-- The nodes of an expression, which may be taken as a single leaf. -/
def runExpression (settings : Settings) (expression : Text) (single : Bool) : Run (List Node) :=
  if single then
    { result := match expandSingle settings expression with
        | .ok n => .ok [n]
        | .error r => .error (.rejected r) }
  else Shorthand.run settings expression

def runExpand (s : Store) (expression : Text) (single : Bool) (format : Text)
    (settings : Option Text) : Outcome :=
  match expandFormats.lookup format with
  | none => { ending := unknownFormat format (expandFormats.map (·.1)), store := s }
  | some f =>
    match Settings.load s settings with
    | .error e => { ending := settingsFailure settings e, store := s }
    | .ok settings =>
      let r := runExpression settings expression single
      { steps := r.steps
        warnings := r.warnings
        ending := match r.result with
          | .ok nodes => showNodes nodes f
          | .error e => expandFailure e
        store := s }

/-! ### Linting -/

inductive LintFormat where
  | text
  | json
  deriving Repr, DecidableEq

def lintFormats : List (Text × LintFormat) :=
  [("text", .text), ("json", .json)]

def textOrNull (t : Option Text) : Data :=
  t.elim .null .text

/-- A diagnostic as data. Its source is told by its code. -/
def itemOf (d : Diagnostic) : Data :=
  let source := if (Text.ofString "L_").isPrefixOf d.code then "lint" else "expand"
  .record
    [("code", .text d.code), ("expression", textOrNull d.expression),
     ("message", .text d.message), ("segment", textOrNull d.segment),
     ("severity", .text "error"), ("source", .text source)]

def lintReport (ds : List Diagnostic) : Data :=
  .record
    [("command", .text "lint"), ("error_count", .number ds.length),
     ("errors", .list (ds.map itemOf)), ("ok", .bool ds.isEmpty),
     ("tool", .text "emmet")]

def showFindings (ds : List Diagnostic) : LintFormat → Ending
  | .json =>
    .printed (Text.withoutSequences ((lintReport ds).toJson true ++ "\n"))
      (if ds.isEmpty then 0 else 2)
  | .text => if ds.isEmpty then printed "OK: lint passed" else .reported ds 2

/-- Lints and then expands an expression with the default settings. What the expansion would warn
of is among the findings. -/
def runLint (s : Store) (expression format : Text) : Outcome :=
  match lintFormats.lookup format with
  | none => { ending := unknownFormat format (lintFormats.map (·.1)), store := s }
  | some f =>
    let found := (Shorthand.lint expression).map Finding.diagnostic
    let r := Shorthand.run {} expression
    { steps := (Lint.extraction defaultBase (Text.normalize expression)).steps ++ r.steps
      ending := match r.result with
        | .ok _ => showFindings found f
        | .error (.rejected e) => showFindings (found ++ [e.diagnostic]) f
        | .error e => .interrupted (.failure e)
      store := s }

/-! ### Expanding a batch -/

inductive BatchFormat where
  | json
  | yaml
  | html
  deriving Repr, DecidableEq

def batchFormats : List (Text × BatchFormat) :=
  [("json", .json), ("yaml", .yaml), ("html", .html)]

/-- The HTML of each forest on a line after its name. -/
def htmlLines : List (Text × List Node) → Except Html.UnclosedName Text
  | [] => .ok []
  | (name, nodes) :: r => do
    let html ← toHtml nodes
    return name ++ ": " ++ html ++ "\n" ++ (← htmlLines r)

def batchData (forests : List (Text × List Node)) : Data :=
  .record (forests.map fun (name, nodes) => (name, dataOf nodes))

def showBatch (forests : List (Text × List Node)) : BatchFormat → Except Html.UnclosedName Text
  | .json => .ok ((batchData forests).toJson false ++ "\n")
  | .yaml => .ok (batchData forests).toYaml
  | .html => htmlLines forests

/-- Prints the text of a batch, or writes it to a file. The file is emptied before the text is
looked at, so it stays empty if the text cannot be written. A text that is printed is not looked at
(`printed`): half of a surrogate pair keeps it out of a file only. -/
def deliver (s : Store) (count : Nat) (out : Option Text) (t : Text) : Ending × Store :=
  match out with
  | none | some [] => (.printed (Text.withoutSequences t) 0, s)
  | some path =>
    let octets := Text.toUtf8 t
    match s.write (Path.ofText path) (octets.toOption.getD []), octets with
    | .error f, _ => (.interrupted (.file f), s)
    | .ok s, .error u => (.interrupted (.unwritable u), s)
    | .ok s, .ok _ =>
      (printed ("OK: wrote " ++ Text.decimal count ++ " expansions to " ++ path), s)

def expanded (runs : List (Text × Run (List Node))) : List (Text × List Node) :=
  runs.filterMap fun (name, r) => match r.result with
    | .ok nodes => some (name, nodes)
    | .error _ => none

def rejections (runs : List (Text × Run (List Node))) : List Diagnostic :=
  runs.filterMap fun (_, r) => match r.result with
    | .error (.rejected e) => some e.diagnostic
    | _ => none

def interruption? (runs : List (Text × Run (List Node))) : Option Failure :=
  runs.findSome? fun (_, r) => match r.result with
    | .ok _ | .error (.rejected _) => none
    | .error e => some e

/-- How a batch ends when all its expressions have been tried. Nothing is written if one fails. -/
def endBatch (s : Store) (runs : List (Text × Run (List Node))) (format : BatchFormat)
    (out : Option Text) : Ending × Store :=
  match interruption? runs, rejections runs with
  | some e, _ => (.interrupted (.failure e), s)
  | none, d :: ds => (.reported (d :: ds) 2, s)
  | none, [] =>
    match showBatch (expanded runs) format with
    | .error n => (.interrupted (.name n), s)
    | .ok t => deliver s runs.length out t

def runBatch (s : Store) (path format : Text) (settings out : Option Text) : Outcome :=
  match batchFormats.lookup format with
  | none => { ending := unknownFormat format (batchFormats.map (·.1)), store := s }
  | some f =>
    match Batch.load s path with
    | .error (.problem p q) => { ending := .reported [q.diagnostic p] 1, store := s }
    | .error (.file e) => { ending := .interrupted (.file e), store := s }
    | .ok b =>
      match Settings.load s settings with
      | .error e => { ending := settingsFailure settings e, store := s }
      | .ok settings =>
        let runs := b.map fun (name, e) => (name, Shorthand.run settings e)
        let (ending, store) := endBatch s runs f out
        { steps := runs.flatMap fun (_, r) => r.steps
          warnings := runs.flatMap fun (_, r) => r.warnings
          ending
          store }

/-- The outcome of a command. -/
def run (s : Store) : Command → Outcome
  | .expand expression single format settings => runExpand s expression single format settings
  | .lint expression format => runLint s expression format
  | .batch path format settings out => runBatch s path format settings out

end Command

end Shorthand
