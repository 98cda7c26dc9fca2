import Stencil.Digest.Md5
import Stencil.Sheet.Flatten
import Stencil.Sheet.Minify
import Stencil.Sheet.Prune

/-!
# Bundles

A bundle is the flat and minified form of a sheet, written to a directory next to it under a name
made of the sheet's name and the digest of a layout's name.  Bundles that were built since the
last pruning can be pruned to the classes that a page uses.
-/

namespace Stencil.Sheet

open Stencil.Text Stencil.Files

/-- How bundles are built and which ones were. -/
structure Bundler where
  useCache : Bool
  directoryName : List Char
  built : List Path

namespace Bundler

def fresh (useCache : Bool) (directoryName : List Char) : Bundler :=
  ⟨useCache, directoryName, []⟩

def bundleName (file : Path) (layout : List Char) : List Char :=
  -- Sheets whose names agree up to the first point have bundles of one name.
  file.name.takeWhile (· != '.') ++ "_cache_".toList ++ Digest.Md5.hexOfText layout ++
    ".css".toList

def bundlePath (bundler : Bundler) (file : Path) (layout : List Char) : Path :=
  let directory := file.parent.join (Path.ofText bundler.directoryName)
  { directory with names := directory.names ++ [bundleName file layout] }

/-- A link to a bundle.  Its reference takes the place of the word for it. -/
def link (reference href attributes after : List Char) : List Char :=
  let named (text : List Char) : List Char := replaceAll "<filename>".toList reference text
  let attributes := if attributes.isEmpty then [] else ' ' :: attributes
  "<link href=\"".toList ++ named href ++ ['"'] ++ attributes ++ ['>'] ++ named after

structure Workplace where
  tree : Tree
  bundler : Bundler

/-- A computation that changes files and may fail on the way. -/
abbrev Work (α : Type) := ExceptT Failure (StateM (Workplace × List Warning)) α

def warn (warning : Warning) : Work Unit :=
  modify fun (place, warnings) => (place, warnings ++ [warning])

/-- Take over the outcome of a computation that changes no files. -/
def ofLogged {α : Type} (computation : Logged Failure α) : Work α := fun (place, warnings) =>
  let (result, added) := computation.outcome
  (result, (place, warnings ++ added))

def changeTree (change : Tree → Except Files.Problem Tree) : Work Unit := do
  let (place, _) ← get
  match change place.tree with
  | .ok tree => modify fun (place, warnings) => ({ place with tree := tree }, warnings)
  | .error problem => throw (.file problem)

def changeBundler (change : Bundler → Bundler) : Work Unit :=
  modify fun (place, warnings) => ({ place with bundler := change place.bundler }, warnings)

/-- The text of the bundle of a sheet, which counts as built if the sheet exists. -/
def buildText (file target : Path) : Work (List Char) := do
  let (place, _) ← get
  if place.tree.exists? file then
    let sheet ← ofLogged (flatten place.tree file bundleLevel)
    -- The bundle is listed even if it cannot be written afterwards.
    changeBundler fun bundler => { bundler with built := bundler.built ++ [target] }
    return Sheet.minify sheet
  else
    warn (.sheetMissing file.text)
    return missingNote file

/-- Build the bundle of a sheet, or find it built, and give the reference to it. -/
def build (file : Path) (layout : List Char) : Work (List Char) := do
  let (place, _) ← get
  let bundler := place.bundler
  let target := bundler.bundlePath file layout
  -- The directory is made even if nothing will be written to it.
  changeTree (·.makeDirectories target.parent)
  let (place, _) ← get
  if !(bundler.useCache && place.tree.exists? target) then
    let text ← buildText file target
    changeTree (·.writeText target text)
  return bundler.directoryName ++ '/' :: bundleName file layout

/-- Build the bundle of a sheet, or find it built, and link to it. -/
def prepare (file : Path) (href attributes after layout : List Char) : Work (List Char) := do
  return link (← build file layout) href attributes after

/-- Prune one bundle, if it is still there. -/
def pruneBundle (used : List (List Char)) (path : Path) : Work Nat := do
  let (place, _) ← get
  if place.tree.exists? path then
    match place.tree.readText path with
    | .error problem => throw (.file problem)
    | .ok sheet =>
      changeTree (·.writeText path (Sheet.prune used sheet))
      return 1
  else return 0

/-- Prune the bundles one after the other and count them. -/
def pruneAll (used : List (List Char)) : List Path → Work Nat
  | [] => return 0
  | path :: rest => do
    let first ← pruneBundle used path
    let others ← pruneAll used rest
    return first + others

/-- Prune the bundles that were built since the last time to the classes that a page uses, and
count those that were written. -/
def prune (page : List Char) : Work Nat := do
  let (place, _) ← get
  let count ← pruneAll (usedClasses page) place.bundler.built
  changeBundler fun bundler => { bundler with built := [] }
  return count

end Bundler

end Stencil.Sheet
