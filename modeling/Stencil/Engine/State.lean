import Stencil.Block.Resolve
import Stencil.Config.Template
import Stencil.Context
import Stencil.Engine.Cache
import Stencil.Host.Evaluator
import Stencil.Layout.Compose
import Stencil.Sandbox
import Stencil.Sheet.Bundle
import Stencil.TextFunction

/-!
# Engines

An engine renders pages.  It has its configuration, its directories, its registries of renderers
and blocks, the context of the page, an evaluator and an environment for host code, and the files
that it works on.
-/

namespace Stencil.Engine

open Stencil.Data Stencil.Files Stencil.Config Stencil.Host

/-- What changes a text on its way; the blocks of the engine may be resolved as well. -/
inductive Renderer where
  | blocks
  | function (function : TextFunction)

def blockRenderer : List Char := "dotapp.block".toList

structure World where
  place : Sheet.Bundler.Workplace
  warnings : List Warning
  layout : List Char

structure State where
  config : TemplateConfig
  places : Layout.Places
  context : Context
  renderers : Registry Renderer
  blocks : Registry Block.Handler
  evaluator : Evaluator World Failure
  environment : Environment World Failure
  templates : Cache
  place : Sheet.Bundler.Workplace
  warnings : List Warning

/-- A computation on an engine.  What it has changed stays so, even if it fails. -/
abbrev Work (α : Type) := ExceptT Failure (StateM State) α

def pathArgument : Option Host.Value → Except (Halt Failure) Path
  | some (.text _ s) => .ok (Path.ofText s)
  | _ => .error (.problem .wrongType)

/-- An argument in which a reference is to be put, so that it has to be a text. -/
def patternArgument : Option Host.Value → Except (Halt Failure) (List Char)
  | none => .ok []
  | some (.text _ s) => .ok s
  | some (.absent absence) => .error (.problem absence.problem)
  | some _ => .error (.problem .wrongMember)

def shownArgument : Option Host.Value → Except (Halt Failure) (List Char)
  | none => .ok []
  | some value => Except.mapError .problem do
    if ← value.truth then value.shown else .ok []

/-- The function that prepares a style sheet and gives the link to it.  The bundle is there even if
the link cannot be made. -/
def stylesheet : Action World Failure := fun arguments world =>
  match arguments.bind 2 ["file", "href", "attributes", "after"] with
  | .error problem => (.error (.problem problem), world)
  | .ok given =>
    match pathArgument given[0]?.join with
    | .error halt => (.error halt, world)
    | .ok file =>
      let work := Sheet.Bundler.build file world.layout
      let (result, place, warnings) := work.run.run (world.place, world.warnings)
      let link : Except (Halt Failure) Host.Value := do
        let reference ← result.mapError .failure
        let href ← patternArgument given[1]?.join
        let after ← patternArgument given[3]?.join
        let attributes ← shownArgument given[2]?.join
        return .text true (Sheet.Bundler.link reference href attributes after)
      (link, { world with place := place, warnings := warnings })

def untranslated : Action World Failure :=
  Action.ofFunction fun arguments => do
    match ← arguments.bind 1 ["text"] with
    | [some value] => return value
    | _ => .error .wrongType

structure Parts where
  config : TemplateConfig
  translator : GlobalEntry World Failure := .action untranslated
  globals : List (List Char × Host.Value) := []
  filters : List (List Char × Action World Failure) := []
  evaluator : Evaluator World Failure := .standard
  lookup : Layout.Lookup := Layout.source?
  tree : Tree

def Parts.environment (parts : Parts) : Environment World Failure :=
  let policy : Policy :=
    { Policy.standard with
      autoescape := parts.config.autoescape.truthy
      strictUndefined := parts.config.strictUndefined.truthy }
  let sandbox : Sandbox World Failure :=
    (Sandbox.ofPolicy policy false parts.config.sandbox.truthy).registerGlobal
      Directive.translatorName parts.translator
  let sandbox := sandbox.registerGlobal "stylesheet".toList (.action stylesheet)
  -- A later registration replaces an earlier one, also one of the engine's own.
  let sandbox := parts.globals.foldl
    (fun sandbox (name, value) => sandbox.registerGlobal name (.value value)) sandbox
  let sandbox := parts.filters.foldl
    (fun sandbox (name, action) => sandbox.registerFilter name action) sandbox
  sandbox.environment

def textOption (value : Data.Value) : Except Failure (List Char) :=
  match value with
  | .text s => .ok s.toList
  | _ => .error (.host .wrongType)

def textOptionOrNone (value : Data.Value) : Except Failure (Option (List Char)) :=
  if value.truthy then (textOption value).map some else .ok none

def State.ofParts (parts : Parts) : Except Failure State := do
  let config := parts.config
  let places := Layout.Places.ofBase (← textOption config.viewsDirectory)
    (← textOptionOrNone config.layoutsDirectory)
    ((← textOptionOrNone config.modulesDirectory).getD []) (← textOption config.viewSuffix)
    (← textOption config.layoutSuffix)
  return {
    config := config
    places := { places with lookup := parts.lookup }
    context := .empty
    renderers := [(blockRenderer, .blocks)]
    blocks := []
    evaluator := parts.evaluator
    environment := parts.environment
    templates := []
    place := ⟨parts.tree, .fresh config.cacheSheets.truthy "cache".toList⟩
    warnings := [] }

end Stencil.Engine
