import Stencil.Data.Table
import Stencil.Fault.Template
import Stencil.Files.Path
import Stencil.Text.Newline

/-!
# Trees of files

A tree holds files and directories by their places, which are the names on the way down from the
top.  A path is followed from the working directory, or from the top if it is rooted, name by
name: every name but the last one has to be a directory, and double dots lead one level up.  A
file holds text, or bytes that are no text.  A path with a null character in it is refused before
anything is looked for.  Names are of any length; one that is too long for a system is a name that
is not there.
-/

namespace Stencil.Files

open Stencil.Text

abbrev Place := List (List Char)

inductive Entry where
  | file (text : Option (List Char))
  | directory
  deriving DecidableEq

inductive Problem where
  | notFound
  | isDirectory
  | notDirectory
  | alreadyExists
  | notText
  | nullCharacter
  deriving DecidableEq

structure Tree where
  entries : List (Place × Entry)
  home : Place

namespace Tree

/-- A tree with only a working directory in it. -/
def empty : Tree :=
  ⟨[], ["home".toList, "site".toList]⟩

def entry? (tree : Tree) (place : Place) : Option Entry :=
  Table.get? tree.entries place

/-- The text of the file at a place, if there is a file. -/
def file? (tree : Tree) (place : Place) : Option (Option (List Char)) :=
  match tree.entry? place with
  | some (.file text) => some text
  | _ => none

/-- Everything that something else lies in is a directory. -/
def isDirectory (tree : Tree) (place : Place) : Bool :=
  tree.entry? place == some .directory || place.isPrefixOf tree.home ||
    tree.entries.any fun entry => place.isPrefixOf entry.1 && place != entry.1

def follow (tree : Tree) (here : Place) : List (List Char) → Except Problem Place
  | [] => .ok here
  | name :: rest =>
    if tree.isDirectory here then
      -- Double dots are followed from a directory that is there, other than in `resolve`.
      tree.follow (if name == ['.', '.'] then here.dropLast else here ++ [name]) rest
    else if (tree.file? here).isSome then .error .notDirectory
    else .error .notFound

/-- The place that a path leads to, whether or not there is anything. -/
def locate (tree : Tree) (path : Path) : Except Problem Place :=
  if path.hasNull then .error .nullCharacter
  else tree.follow (if path.rooted then [] else tree.home) path.names

/-- The place that the spelling of a path means. -/
def resolve (tree : Tree) (path : Path) : Place :=
  Path.resolveNames [] ((if path.rooted then [] else tree.home) ++ path.names)

def exists? (tree : Tree) (path : Path) : Bool :=
  match tree.locate path with
  | .ok place => (tree.file? place).isSome || tree.isDirectory place
  | .error _ => false

def isFile (tree : Tree) (path : Path) : Bool :=
  match tree.locate path with
  | .ok place => (tree.file? place).isSome
  | .error _ => false

inductive Kind where
  | file
  | directory
  deriving DecidableEq

/-- What is at a path as it is spelled.  A path with a slash or a point at its end can only lead
to a directory. -/
def kindAt? (tree : Tree) (path : List Char) : Option Kind :=
  if path.isEmpty then none
  else
    match tree.locate (Path.ofText path) with
    | .error _ => none
    | .ok place =>
      if tree.isDirectory place then some .directory
      else if Path.isIdleName (lastName path) then none
      else (tree.file? place).map fun _ => .file

/-- The text of a file as it is. -/
def readExact (tree : Tree) (path : Path) : Except Problem (List Char) := do
  let place ← tree.locate path
  match tree.file? place with
  | some (some text) => .ok text
  | some none => .error .notText
  | none => if tree.isDirectory place then .error .isDirectory else .error .notFound

/-- The text of a file with its line ends unified. -/
def readText (tree : Tree) (path : Path) : Except Problem (List Char) :=
  (tree.readExact path).map unifyNewlines

def putFile (tree : Tree) (place : Place) (text : Option (List Char)) : Tree :=
  { tree with entries := Table.put tree.entries place (.file text) }

/-- Write a text to a path.  Its directory has to be there. -/
def writeText (tree : Tree) (path : Path) (text : List Char) : Except Problem Tree := do
  let place ← tree.locate path
  if tree.isDirectory place then .error .isDirectory
  else .ok (tree.putFile place (some text))

/-- Make the directory that the names lead to, and those on the way. -/
def makeDirectoriesFrom (tree : Tree) (rooted : Bool) (names : List (List Char)) :
    Except Problem Tree :=
  match names with
  | [] => .ok tree
  | first :: rest =>
    match tree.locate ⟨rooted, first :: rest⟩ with
    -- Double dots count as names on the way, so what they lead through is made as well.
    | .error .notFound => do
      let tree ← tree.makeDirectoriesFrom rooted (first :: rest).dropLast
      makeLast tree
    | .error problem => .error problem
    | .ok _ => makeLast tree
termination_by names.length
decreasing_by simp
where
  makeLast (tree : Tree) : Except Problem Tree := do
    let place ← tree.locate ⟨rooted, names⟩
    if tree.isDirectory place then .ok tree
    else if (tree.file? place).isSome then .error .alreadyExists
    else .ok { tree with entries := Table.put tree.entries place .directory }

def makeDirectories (tree : Tree) (path : Path) : Except Problem Tree :=
  tree.makeDirectoriesFrom path.rooted path.names

/-- The places of all files below a place, as seen from there. -/
def filesBelow (tree : Tree) (place : Place) : List Place :=
  tree.entries.filterMap fun (found, entry) =>
    match entry with
    | .file _ =>
      if place.isPrefixOf found && place != found then some (found.drop place.length) else none
    | .directory => none

def listFiles (tree : Tree) (path : Path) : List (List Char) :=
  TemplateFault.sortTexts
    ((tree.filesBelow (tree.resolve path)).map fun names => List.intercalate ['/'] names)

end Tree

end Stencil.Files
