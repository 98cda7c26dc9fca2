import Stencil.Failure
import Stencil.Sheet.Reference
import Stencil.Warning

/-!
# Flat sheets

A sheet is made flat by putting the flat forms of the sheets that it imports in the places of its
statements of import.  A sheet that is just being flattened is not put into itself; such a cycle
is left out.  A sheet imported at two places is put at both.  A chain of imports may be as long as
there are sheets for it.  Relative references are led through the directory of the sheet that they
stand in.
-/

namespace Stencil.Sheet

open Stencil.Text Stencil.Files

def missingNote (path : Path) : List Char :=
  "/* SOURCE CSS FILE '".toList ++ path.text ++ "' NOT FOUND */".toList

/-- The path from a sheet's bundle to the directory of a sheet that it imports. -/
def throughOf (through target : List Char) : List Char :=
  let directory := directoryText target
  if directory.isEmpty then through else through ++ '/' :: directory ++ ['/']

/-- A sheet taken apart: its imports, and its text with marks for them. -/
structure Source where
  text : List Char
  targets : List (List Char)

/-- Take a sheet apart; its relative references lead through the given path. -/
def Source.ofSheet (through sheet : List Char) : Source :=
  let (text, targets) := takeImports 0 (cut importStatement? sheet)
  ⟨leadReferences through text, targets⟩

/-- Flatten the sheet at a path.  `chain` holds the sheets that are being flattened; it is the
longest when every file is one of them, and `depth` counts what may still come into it. -/
def flattenWithin (tree : Tree) (depth : Nat) (chain : List Place) (path : Path)
    (through : List Char) : Logged Failure (List Char) :=
  match depth with
  | 0 => return []
  | depth + 1 => do
    let through := tidyPath through
    let place := tree.resolve path
    -- A file is known by its place, however its path is spelled; a path that cannot be one of a
    -- file has no place, and to read it fails.
    if !path.hasNull && chain.contains place then
      Logged.warn (.sheetCycle path.text)
      return []
    else
      match tree.readText path with
      | .error .notFound =>
        Logged.warn (.sheetMissing path.text)
        return missingNote path
      | .error problem => throw (.file problem)
      | .ok sheet =>
        let source := Source.ofSheet through sheet
        fill
          (fun number =>
            match source.targets[number]? with
            | none => throw .unknownImport
            | some target =>
              flattenWithin tree depth (place :: chain) (path.parent.join (Path.ofText target))
                (throughOf through target))
          (cut importMark? source.text)

/-- The path through which references lead from a bundle, which lies one level below its sheet. -/
def bundleLevel : List Char := "../".toList

def flatten (tree : Tree) (path : Path) (through : List Char) : Logged Failure (List Char) :=
  flattenWithin tree (tree.entries.length + 2) [] path through

end Stencil.Sheet
