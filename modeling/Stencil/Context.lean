import Stencil.Data.Table
import Stencil.Data.Value

/-!
# The context of a page

A page selects a layout and a view by name.  Each of the two kinds keeps a bag of variables for
every name, and the bag of the selected name is the one that is seen.  Nothing that happens to one
kind touches the other.
-/

namespace Stencil

open Stencil.Data

abbrev Variables := List (List Char × Value)

/-- A selected name, and a bag of variables for every name. -/
structure Selection where
  selected : List Char
  bags : List (List Char × Variables)

namespace Selection

def empty : Selection :=
  ⟨[], []⟩

def select (selection : Selection) (name : List Char) : Selection :=
  { selection with selected := name }

/-- The variables that are seen. -/
def bindings (selection : Selection) : Variables :=
  (Table.get? selection.bags selection.selected).getD []

def set (selection : Selection) (name : List Char) (value : Value) : Selection :=
  { selection with
    bags := Table.put selection.bags selection.selected
      (Table.put selection.bindings name value) }

def get (selection : Selection) (name : List Char) (fallback : Value) : Value :=
  (Table.get? selection.bindings name).getD fallback

def clearSelected (selection : Selection) : Selection :=
  { selection with bags := Table.erase selection.bags selection.selected }

def clearAll (selection : Selection) : Selection :=
  { selection with bags := [] }

theorem get_set_self (selection : Selection) (name : List Char) (value fallback : Value) :
    (selection.set name value).get name fallback = value := by
  simp [get, set, bindings, Table.get?_put_self]

theorem get_set_of_ne (selection : Selection) {name other : List Char} (value fallback : Value)
    (hne : other ≠ name) :
    (selection.set name value).get other fallback = selection.get other fallback := by
  simp [get, set, bindings, Table.get?_put_self, Table.get?_put_of_ne _ _ hne]

end Selection

structure Context where
  layout : Selection
  view : Selection

inductive Extent where
  | layout
  | view
  | everything

namespace Context

def empty : Context :=
  ⟨.empty, .empty⟩

def clear (context : Context) : Extent → Context
  | .layout => { context with layout := context.layout.clearSelected }
  | .view => { context with view := context.view.clearSelected }
  | .everything => ⟨context.layout.clearAll, context.view.clearAll⟩

/-- The extent that a value names; no value at all is everything. -/
def extent? : Value → Option Extent
  | .null => some .everything
  | .text "layout" => some .layout
  | .text "view" => some .view
  | _ => none

def extentMessage (value : Value) : List Char :=
  "Unknown context scope: ".toList ++ value.quoted

end Context

end Stencil
