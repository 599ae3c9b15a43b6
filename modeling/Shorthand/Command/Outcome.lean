import Shorthand.Expansion
import Shorthand.Html.Printer
import Shorthand.Settings.File
import Shorthand.Text.Terminal

/-!
# Outcomes

What a command comes to: it prints something, or it reports what is wrong, or it is cut short by
something that it does not report. Then there is what happens on the way: steps and warnings, and
files that are written.
-/

namespace Shorthand

/-- What cuts a command short. -/
inductive Interruption where
  | file (f : FileFault)
  | longKey
  | document (f : DocumentFault)
  | scalar (f : Yaml.Fault)
  | name (n : Html.UnclosedName)
  | unwritable (u : Text.Utf8.Unwritable)
  | failure (f : Failure)

def Interruption.message : Interruption → Text
  | file f => f.message
  | longKey => Decimal.tooLongMessage none
  | document f => f.message
  | scalar f => f.message
  | name n => n.message
  | unwritable u => u.message
  | failure f => f.message

inductive Ending where
  | printed (output : Text) (code : Nat)
  | reported (diagnostics : List Diagnostic) (code : Nat)
  | interrupted (i : Interruption)

structure Outcome where
  steps : List Step := []
  warnings : List Warning := []
  ending : Ending
  store : Store

namespace Diagnostic

def sortKey (d : Diagnostic) : List Text :=
  [d.expression.getD [], d.segment.getD [], d.code]

def sort (ds : List Diagnostic) : List Diagnostic :=
  ds.mergeSort fun a b => Text.listAtMost a.sortKey b.sortKey

end Diagnostic

def Step.line (s : Step) : Text :=
  "DEBUG " ++ s.topic ++ ": " ++ s.message ++ "\n"

namespace Outcome

/-- The exit code, unless the command is cut short. -/
def exitCode (o : Outcome) : Option Nat :=
  match o.ending with
  | .printed _ code | .reported _ code => some code
  | .interrupted _ => none

def output (o : Outcome) : Text :=
  match o.ending with
  | .printed t _ => t
  | _ => []

/-- The lines about what is wrong, after those about the steps if they are asked for. Warnings are
shown besides. -/
def errors (verbose : Bool) (o : Outcome) : Text :=
  let log := if verbose then o.steps.flatMap Step.line else []
  match o.ending with
  | .reported ds _ =>
    log ++ Text.withoutSequences ((Diagnostic.sort ds).flatMap fun d => d.render ++ "\n")
  | _ => log

end Outcome

end Shorthand
