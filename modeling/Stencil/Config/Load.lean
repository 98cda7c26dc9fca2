import Stencil.Config.Assignment
import Stencil.Config.Layer
import Stencil.Config.Problem
import Stencil.Config.Template
import Stencil.Config.Variables
import Stencil.Data.Yaml.Read
import Stencil.Files.Wildcard
import Stencil.Warning

/-!
# Loading a configuration

Settings come from configuration files, a file of variables, the variables of the environment, and
from what is given directly; of these, later sources prevail.  Of the variables only those count
whose names begin with a marker.  The readers of the files are a part of the sources.
-/

namespace Stencil.Config

open Stencil.Data Stencil.Files Stencil.Text

abbrev Bindings := List (List Char × List Char)

/-- How the texts of YAML files and of files of variables are read. -/
structure Readers where
  yaml : List Char → Except Yaml.Problem Value
  bindings : List Char → Bindings

def Readers.standard : Readers where
  yaml := Yaml.read
  bindings := readVariables

structure Sources where
  patterns : List (List Char) := []
  marker : List Char := "DV_".toList
  variableFile : List Char := []
  environment : Bindings := []
  overrides : Settings := []
  readers : Readers := .standard

/-- What stands after the last point of a file's name, with that point.  A point at either end of
the name does not count. -/
def suffix (name : List Char) : List Char :=
  match lastIndexOf? ['.'] name with
  | some position =>
    if 0 < position && position + 1 < name.length then name.drop position else []
  | none => []

def Notation.ofName? (name : List Char) : Option Notation :=
  match String.ofList (suffix name) with
  | ".json" => some .json
  | ".yaml" | ".yml" => some .yaml
  | _ => none

def Notation.read (kind : Notation) (readers : Readers) (path text : List Char) :
    Except Failure Value :=
  match kind with
  | .json => (Json.read text).mapError fun problem =>
    match problem with
    | .malformed => .problem (.malformedFile .json path)
    | .numberTooLong => .outOfBounds
  | .yaml => (readers.yaml text).mapError fun problem =>
    match problem with
    | .malformed => .problem (.malformedFile .yaml path)
    | .outOfBounds => .outOfBounds

/-- The layer of a file's data.  Nothing at all is an empty mapping. -/
def dataLayer (path : List Char) (data : Value) : Except Failure Layer :=
  match data with
  | .null => .ok (.mapping [])
  | .map entries => .ok (.mapping entries)
  | _ => .error (.problem (.fileNotMapping path))

def fileLayer (readers : Readers) (tree : Tree) (path : Path) : Logged Failure (Option Layer) :=
  match Notation.ofName? path.name with
  | none => do
    Logged.warn (.unknownConfigType path.text)
    return none
  | some kind =>
    Logged.ofExcept do
      let text ← (tree.readText path).mapError .file
      let data ← kind.read readers path.text text
      return some (← dataLayer path.text data)

/-- The layers of all files that a pattern describes.  A path without wildcards has to lead to
one. -/
def patternLayers (readers : Readers) (tree : Tree) (pattern : List Char) :
    Logged Failure (List Layer) := do
  let paths ← Logged.ofExcept ((tree.select pattern).mapError .file)
  if paths.isEmpty && !Wildcard.isPattern pattern then
    throw (.problem (.missingFile pattern))
  let layers ← paths.mapM fun path => fileLayer readers tree (Path.ofText path)
  return layers.filterMap id

def variableLayers (marker : List Char) (bindings : Bindings) : Except Failure (List Layer) :=
  let marked := bindings.filterMap fun (name, value) =>
    (after? marker name).map fun rest => (rest, value)
  marked.mapM fun (name, value) => do
    let value ← (readValue value).mapError fun _ => .outOfBounds
    return .assignment (settingPath name) value

/-- The variables of a file; without such a file there are none. -/
def fileVariables (readers : Readers) (tree : Tree) (file : List Char) :
    Except Failure Bindings :=
  if !file.isEmpty && tree.isFile (Path.ofText file) then
    ((tree.readText (Path.ofText file)).map readers.bindings).mapError .file
  else .ok []

/-- The layers of all sources, from the lowest to the highest. -/
def Sources.layers (sources : Sources) (tree : Tree) : Logged Failure (List Layer) := do
  let files ← sources.patterns.mapM (patternLayers sources.readers tree)
  let bindings ← Logged.ofExcept (fileVariables sources.readers tree sources.variableFile)
  let filed ← Logged.ofExcept (variableLayers sources.marker bindings)
  let environment ← Logged.ofExcept (variableLayers sources.marker sources.environment)
  return files.flatten ++ filed ++ environment ++ [.mapping sources.overrides]

def Sources.load (sources : Sources) (tree : Tree) : Logged Failure Settings := do
  return .ofLayers (← sources.layers tree)

/-- The value is a positive integer; a true one counts as one. -/
def isPositive (value : Value) : Bool :=
  match value with
  | .int n => 0 < n
  | .bool b => b
  | _ => false

def checkPositive (limit : Limit) (value : Value) : Except Problem Unit :=
  if isPositive value then .ok () else .error (.notPositive limit value)

/-- The configuration of an engine, from the section that is meant for it. -/
def Settings.templateConfig (settings : Settings) : Except Problem TemplateConfig := do
  let options := settings.get "templates".toList (.map [])
  if !options.isMap then .error .sectionNotMapping
  else
    let config := TemplateConfig.ofSection options
    checkPositive .layoutDepth config.maxLayoutDepth
    checkPositive .cacheSize config.cacheSize
    .ok config

end Stencil.Config
