import Stencil.Data.Value
import Stencil.Files.Tree

/-!
# Problems with a configuration
-/

namespace Stencil.Config

open Stencil.Data

inductive Notation where
  | json
  | yaml
  deriving DecidableEq

def Notation.name : Notation → List Char
  | .json => "JSON".toList
  | .yaml => "YAML".toList

inductive Limit where
  | layoutDepth
  | cacheSize
  deriving DecidableEq

def Limit.name : Limit → List Char
  | .layoutDepth => "max_layout_depth".toList
  | .cacheSize => "cache_size".toList

inductive Problem where
  | missingFile (pattern : List Char)
  | malformedFile (kind : Notation) (path : List Char)
  | fileNotMapping (path : List Char)
  | sectionNotMapping
  | notPositive (limit : Limit) (value : Value)

def Problem.message : Problem → List Char
  | .missingFile pattern => "Config file not found: ".toList ++ pattern
  | .malformedFile kind path => "Invalid ".toList ++ kind.name ++ " in ".toList ++ path
  | .fileNotMapping path => "Config file ".toList ++ path ++ " must contain a mapping".toList
  | .sectionNotMapping => "'templates' config section must be a mapping".toList
  | .notPositive limit value =>
    "templates.".toList ++ limit.name ++ " must be a positive integer, got ".toList ++
      value.quoted

inductive Failure where
  | problem (problem : Problem)
  | file (problem : Files.Problem)
  /-- A number is out of bounds. -/
  | outOfBounds

end Stencil.Config
