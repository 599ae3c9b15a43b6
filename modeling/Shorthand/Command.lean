import Shorthand.Text.Basic

/-!
# Commands

What a user can ask for on the command line, and how arguments say it. Options may stand before or
after the argument of a command; two dashes end them. Of an option given twice the last one counts.
-/

namespace Shorthand

inductive Command where
  | expand (expression : Text) (single : Bool) (format : Text) (settings : Option Text)
  | lint (expression format : Text)
  | batch (path format : Text) (settings out : Option Text)
  deriving Repr, DecidableEq

structure Invocation where
  verbose : Bool
  command : Command
  deriving Repr, DecidableEq

namespace Command

/-- Arguments after they are sorted. Of the options the last ones come first. -/
structure Arguments where
  flags : List Text := []
  values : List (Text × Text) := []
  plain : List Text := []

def Arguments.value? (a : Arguments) (name : Text) : Option Text :=
  a.values.lookup name

def isOption (argument : Text) : Bool :=
  Text.startsWith argument '-' && 1 < argument.length

/-- Sorts arguments by what a command takes: options with a value and options without one. -/
def sortArguments (valued flags : List Text) (found : Arguments) :
    List Text → Option Arguments
  | [] => some found
  | a :: r =>
    if a = "--" then some { found with plain := found.plain ++ r }
    else if !isOption a then
      sortArguments valued flags { found with plain := found.plain ++ [a] } r
    else match Text.cutFirst '=' a with
      | some (name, v) =>
        if valued.contains name then
          sortArguments valued flags { found with values := (name, v) :: found.values } r
        else none
      | none =>
        if flags.contains a then
          sortArguments valued flags { found with flags := a :: found.flags } r
        else if valued.contains a then
          match r with
          | v :: r => sortArguments valued flags { found with values := (a, v) :: found.values } r
          | [] => none
        else none

def formatOption : Text :=
  "--format"

def settingsOption : Text :=
  "--config"

def outOption : Text :=
  "--out"

def singleOption : Text :=
  "--single"

/-- A command by its name, with its arguments. -/
def ofArguments? (name : Text) (arguments : List Text) : Option Command :=
  if name = "expand" then
    match sortArguments [formatOption, settingsOption] [singleOption] {} arguments with
    | some a =>
      match a.plain with
      | [e] => some (.expand e (a.flags.contains singleOption)
          ((a.value? formatOption).getD "text") (a.value? settingsOption))
      | _ => none
    | none => none
  else if name = "lint" then
    match sortArguments [formatOption] [] {} arguments with
    | some a =>
      match a.plain with
      | [e] => some (.lint e ((a.value? formatOption).getD "text"))
      | _ => none
    | none => none
  else if name = "batch" then
    match sortArguments [formatOption, settingsOption, outOption] [] {} arguments with
    | some a =>
      match a.plain with
      | [p] => some (.batch p ((a.value? formatOption).getD "yaml")
          (a.value? settingsOption) (a.value? outOption))
      | _ => none
    | none => none
  else none

/-- The paths that a command looks at. -/
def paths : Command → List Text
  | expand _ _ _ settings => settings.toList
  | lint .. => []
  | batch path _ settings out => path :: settings.toList ++ out.toList

end Command

namespace Invocation

def isVerboseOption (argument : Text) : Bool :=
  argument = "--verbose" ||
    (Command.isOption argument && argument.tail.all (· == 'v'))

/-- The invocation that arguments ask for, unless they make no sense. -/
def ofArguments? (verbose : Bool) : List Text → Option Invocation
  | [] => none
  | a :: r =>
    if isVerboseOption a then ofArguments? true r
    else
      let words := if a = "--" then r else a :: r
      match words with
      | name :: arguments => (Command.ofArguments? name arguments).map fun c => ⟨verbose, c⟩
      | [] => none

end Invocation

end Shorthand
