import Stencil.Failure
import Stencil.Text.Search

/-!
# Directories of views and layouts

Views lie in one directory and layouts in another one.  Each has a base, and a module has a pair
of its own while it is selected.  How a name is looked up in a directory is a part of the places;
by the standard way it may lead into directories below, never out of them.
-/

namespace Stencil.Layout

open Stencil.Text Stencil.Files

structure Directories where
  views : Path
  layouts : Path
  deriving DecidableEq

/-- The parts of a name, unless one of them leads upwards. -/
def nameParts? (name : List Char) : Option (List (List Char)) :=
  let parts := splitAll ['/'] name
  if parts.contains ['.', '.'] then none else some (parts.filter (!Path.isIdleName ·))

/-- The text of the file of a name in a directory, if there is such a file. -/
def source? (tree : Tree) (directory : Path) (name : List Char) :
    Except Failure (Option (List Char)) :=
  match nameParts? name with
  | none => .ok none
  | some parts =>
    let path := { directory with names := directory.names ++ parts }
    if tree.isFile path then
      match tree.readText path with
      | .ok text => .ok (some text)
      | .error problem => .error (.file problem)
    else .ok none

/-- How the text of a name is found in a directory, if there is one. -/
abbrev Lookup := Tree → Path → List Char → Except Failure (Option (List Char))

structure Places where
  base : Directories
  modules : Path
  viewSuffix : List Char
  layoutSuffix : List Char
  lookup : Lookup
  current : Directories

namespace Places

def layoutsBelow (views : Path) : Path :=
  views.join (Path.ofText "layouts".toList)

/-- Begin with the base directories and the standard lookup.  Layouts lie below the views unless
another directory is named. -/
def ofBase (views : List Char) (layouts : Option (List Char)) (modules : List Char)
    (viewSuffix layoutSuffix : List Char) : Places :=
  let views := Path.ofText views
  let layouts :=
    match layouts with
    | some (c :: rest) => Path.ofText (c :: rest)
    | _ => layoutsBelow views
  let modules := if modules.isEmpty then "modules".toList else modules
  { base := ⟨views, layouts⟩
    modules := Path.ofText modules
    viewSuffix := viewSuffix
    layoutSuffix := layoutSuffix
    lookup := source?
    current := ⟨views, layouts⟩ }

def selectModule (places : Places) (name : List Char) : Places :=
  if name.isEmpty then { places with current := places.base }
  else
    let views := (places.modules.join (Path.ofText name)).join (Path.ofText "views".toList)
    { places with current := ⟨views, layoutsBelow views⟩ }

/-- The source of a layout; an absent one is empty. -/
def layoutSource (places : Places) (tree : Tree) (name : List Char) (base : Bool) :
    Except Failure (List Char) :=
  if name.isEmpty then .ok []
  else
    let directory := if base then places.base.layouts else places.current.layouts
    (places.lookup tree directory (name ++ places.layoutSuffix)).map (·.getD [])

def viewSource (places : Places) (tree : Tree) (name : List Char) :
    Except Failure (List Char) := do
  let name := name ++ places.viewSuffix
  match ← places.lookup tree places.current.views name with
  | some text => .ok text
  | none => .error (.fault (.templateNotFound name [places.current.views.text]))

end Places

end Stencil.Layout
