import Shorthand.Command.Run

/-!
# The command line

Reads what a command looks at, runs it, writes what it changes and prints what it comes to.
-/

namespace Shorthand

namespace Session

def usage : String :=
  "usage: emmet [-v] expand [--single] [--format F] [--config FILE] EXPRESSION\n" ++
  "       emmet [-v] lint [--format F] EXPRESSION\n" ++
  "       emmet [-v] batch [--format F] [--config FILE] [--out FILE] FILE\n"

def filePath (names : List Text) : String :=
  Text.toString ("/" ++ ("/" : Text).intercalate names)

/-- The places on the way of a path, which ends at the last one. -/
def placesOn (here : List Text) (p : Path) : List (List Text) :=
  let start := if p.root.isEmpty then here else []
  (p.names.foldl (fun (place, passed) name =>
    let next := if name = ".." then place.dropLast else place ++ [name]
    (next, passed ++ [next])) (start, [start])).2

/-- The code that the system gives where a file is asked for and a folder stands. -/
def isFolderCode : UInt32 :=
  21

def look (names : List Text) : IO (Option Entry) := do
  try
    let content ← IO.FS.readBinFile (filePath names)
    return some (.file content.toList)
  catch
    | .inappropriateType _ code _ => return if code = isFolderCode then some .folder else none
    | _ => return none

/-- What a command can see. -/
def gather (c : Command) : IO Store := do
  let here := (Path.ofText (← IO.currentDir).toString).names
  let places := c.paths.flatMap fun p => placesOn here (Path.ofText p)
  let entries ← places.eraseDups.filterMapM fun names => do
    return (← look names).map fun e => (names, e)
  return { entries, here }

def save (names : List Text) (content : List UInt8) : IO Unit := do
  IO.FS.createDirAll (filePath names.dropLast)
  IO.FS.writeBinFile (filePath names) ⟨content.toArray⟩

def run (i : Invocation) : IO UInt32 := do
  let store ← gather i.command
  let o := i.command.run store
  for (names, content) in o.store.changedFrom store do
    save names content
  for w in o.warnings do
    IO.eprintln ("warning: " ++ Text.toString w.message)
  IO.eprint (Text.toString (o.errors i.verbose))
  IO.print (Text.toString o.output)
  match o.ending with
  | .printed _ code | .reported _ code => return code.toUInt32
  | .interrupted e =>
    IO.eprintln (Text.toString e.message)
    return 1

end Session

end Shorthand

def main (arguments : List String) : IO UInt32 := do
  match Shorthand.Invocation.ofArguments? false (arguments.map Shorthand.Text.ofString) with
  | some i => Shorthand.Session.run i
  | none =>
    IO.eprint Shorthand.Session.usage
    return 2
