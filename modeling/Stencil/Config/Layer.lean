import Stencil.Data.Value
import Stencil.Text.Search

/-!
# Layers of settings

Settings are laid over each other, and later layers prevail.  A layer is a mapping, whose entries
are merged with those below as deeply as there are mappings on both sides, or a single assignment,
which makes the mappings on its way.
-/

namespace Stencil.Config

open Stencil.Data Stencil.Text

abbrev Settings := List (Key × Value)

def nameKey (name : List Char) : Key :=
  .text (String.ofList name)

/-- The entries of a mapping; whatever else there is has none. -/
def entriesOf : Option Value → Settings
  | some (.map entries) => entries
  | _ => []

mutual

def lay (below : Option Value) : Value → Value
  | .map entries =>
    match below with
    | some (.map settings) => .map (merge settings entries)
    | _ => .map entries
  | value => value

def merge (settings : Settings) : List (Key × Value) → Settings
  | [] => settings
  | (key, value) :: rest =>
    merge (Table.put settings key (lay (Table.get? settings key) value)) rest

end

def assign (settings : Settings) (value : Value) : List (List Char) → Settings
  | [] => settings
  | [name] => Table.put settings (nameKey name) value
  | name :: rest =>
    -- A value that is no mapping gives way to one.
    let inner := entriesOf (Table.get? settings (nameKey name))
    Table.put settings (nameKey name) (.map (assign inner value rest))

inductive Layer where
  | mapping (entries : Settings)
  | assignment (path : List (List Char)) (value : Value)

def Layer.over (layer : Layer) (settings : Settings) : Settings :=
  match layer with
  | .mapping entries => merge settings entries
  | .assignment path value => assign settings value path

namespace Settings

/-- The settings of layers, from the lowest to the highest. -/
def ofLayers (layers : List Layer) : Settings :=
  layers.foldl (fun settings layer => layer.over settings) []

def find? : Value → List (List Char) → Option Value
  | value, [] => some value
  | .map entries, name :: rest => (Table.get? entries (nameKey name)).bind (find? · rest)
  | _, _ :: _ => none

/-- The setting at a path with points between its names. -/
def get (settings : Settings) (path : List Char) (fallback : Value) : Value :=
  (find? (.map settings) (splitAll ['.'] path)).getD fallback

theorem ofLayers_append (layers : List Layer) (layer : Layer) :
    ofLayers (layers ++ [layer]) = layer.over (ofLayers layers) := by
  simp [ofLayers]

end Settings

end Stencil.Config
