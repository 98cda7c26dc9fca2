import Stencil.Command.Run

/-!
# The program

The command line at work: it sees what lies below the working directory, and the variables of the
environment.  What a command has written is put in place after it has ended.
-/

namespace Stencil.Program

open Stencil.Files

partial def entriesBelow (directory : String) (place : Place) : IO (List (Place × Entry)) := do
  let mut found := []
  for entry in ← (← IO.FS.realPath directory).readDir do
    let here := place ++ [entry.fileName.toList]
    match (← entry.path.metadata).type with
    | .dir =>
      let below ← entriesBelow entry.path.toString here
      found := found ++ (here, .directory) :: below
    | .file =>
      let bytes ← IO.FS.readBinFile entry.path
      found := found ++ [(here, .file ((String.fromUTF8? bytes).map String.toList))]
    | _ => pure ()
  return found

def readTree : IO Tree := do
  let home ← IO.FS.realPath "."
  let place := (Path.ofText home.toString.toList).names
  return ⟨← entriesBelow home.toString place, place⟩

def readEnvironment : IO Config.Bindings := do
  let bytes ← IO.FS.readBinFile "/proc/self/environ"
  let text := ((String.fromUTF8? bytes).getD "").toList
  return (Text.splitAll ['\x00'] text).filterMap (Text.splitFirst? ['='])

/-- Put the files in place that are not as they were. -/
def writeChanges (before after : Tree) : IO Unit := do
  for (place, entry) in after.entries do
    let path := String.ofList (Path.text ⟨true, place⟩)
    if before.entry? place != some entry then
      match entry with
      | .directory => IO.FS.createDirAll path
      | .file (some text) => IO.FS.writeFile path (String.ofList text)
      | .file none => pure ()

def failureText : Command.Failure → String
  | .settings (.file _) | .engine (.file _) => "dv: a file cannot be read or written"
  | .settings _ => "dv: the configuration cannot be read"
  | .engine _ => "dv: the template cannot be rendered"

end Stencil.Program

def main (arguments : List String) : IO UInt32 := do
  let tree ← Stencil.Program.readTree
  let given : Stencil.Command.Surroundings := ⟨← Stencil.Program.readEnvironment, tree⟩
  let report := Stencil.Command.run given (arguments.map String.toList)
  Stencil.Program.writeChanges tree report.tree
  let errors ← IO.getStderr
  for warning in report.warnings do
    errors.putStrLn (String.ofList warning.message)
  match report.result with
  | .ok outcome =>
    IO.print (String.ofList outcome.output)
    if outcome.status == 2 then errors.putStrLn "Try 'dv --help' for help."
    return outcome.status.toUInt32
  | .error failure =>
    errors.putStrLn (Stencil.Program.failureText failure)
    return 1
