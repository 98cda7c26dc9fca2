import Stencil.Fault.Template

/-!
# Warnings

What happens on the way to a result and is worth a note, though it stops nothing.
-/

namespace Stencil

inductive Warning where
  | removedServerCode (segments : List (List Char))
  | unhandledBlock (name : List Char)
  | layoutDepth (limit : Int) (layout : List Char)
  | sheetCycle (path : List Char)
  | sheetMissing (path : List Char)
  | unknownConfigType (path : List Char)

def Warning.message : Warning → List Char
  | .removedServerCode segments =>
    (TemplateFault.unsafeContent segments).report.text.toList
  | .unhandledBlock name => "Block '".toList ++ name ++ "' has no handler, left verbatim".toList
  | .layoutDepth limit layout =>
    "Layout inclusion depth ".toList ++ Data.intText limit ++ " reached at '".toList ++ layout ++
      "', possible include cycle".toList
  | .sheetCycle path =>
    "Stylesheet import cycle at ".toList ++ path ++ ", skipped".toList
  | .sheetMissing path => "Stylesheet ".toList ++ path ++ " not found".toList
  | .unknownConfigType path => "Ignoring config file with unknown type: ".toList ++ path

/-- A computation that may fail with an `ε` and that keeps its warnings, in order, either way. -/
abbrev Logged (ε : Type) := ExceptT ε (StateM (List Warning))

def Logged.warn {ε : Type} (warning : Warning) : Logged ε Unit :=
  modify (· ++ [warning])

/-- A result without warnings. -/
def Logged.ofExcept {ε α : Type} (result : Except ε α) : Logged ε α :=
  match result with
  | .ok value => pure value
  | .error failure => throw failure

/-- The result and the warnings of a computation. -/
def Logged.outcome {ε α : Type} (computation : Logged ε α) : Except ε α × List Warning :=
  computation.run.run []

end Stencil
