import Stencil.Engine.State
import Stencil.Markup.Minify
import Stencil.ServerCode

/-!
# Rendering

A page is made in steps.  Its source is composed of layouts, embedded server code is removed,
blocks are resolved and directives become host code; the host code is run, and what it prints is
minified, led through renderers, and used to prune the style sheets.
-/

namespace Stencil.Engine

open Stencil.Data Stencil.Text Stencil.Host

namespace Work

def warn (warning : Warning) : Work Unit :=
  modify fun engine => { engine with warnings := engine.warnings ++ [warning] }

def ofExcept {α : Type} (result : Except Failure α) : Work α :=
  match result with
  | .ok value => pure value
  | .error failure => throw failure

/-- Take over the result and the warnings of a computation. -/
def ofLogged {α : Type} (computation : Logged Failure α) : Work α := fun engine =>
  let (result, warnings) := computation.outcome
  (result, { engine with warnings := engine.warnings ++ warnings })

def ofBundler {α : Type} (work : Sheet.Bundler.Work α) : Work α := fun engine =>
  let (result, place, warnings) := work.run.run (engine.place, engine.warnings)
  (result, { engine with place := place, warnings := warnings })

end Work

def ofBlockFailure : Block.Failure → Failure
  | .fault fault => .fault fault
  | .call failure => .call failure

/-- Resolve the blocks of a text.  Handlers see the given variables, or else those of the view. -/
def resolveBlocks (code : List Char) (arguments : List Data.Value) : Work (List Char) := do
  let engine ← get
  let own : Data.Value := .map (engine.context.view.bindings.map fun (name, value) =>
    (.text (String.ofList name), value))
  let context ←
    match arguments with
    | [] | [.null] => pure own
    | [value] => pure value
    | _ => throw (.call .wrongArguments)
  let resolver : Block.Resolver :=
    ⟨engine.blocks, engine.config.strictBlocks.truthy, some context⟩
  let (result, warnings) := (resolver.resolve code).outcome
  warnings.forM Work.warn
  Work.ofExcept (result.mapError ofBlockFailure)

def renderWith (name code : List Char) (arguments : List Data.Value) : Work (List Char) := do
  match (← get).renderers.get name with
  | .error fault => throw (.fault fault)
  | .ok .blocks => resolveBlocks code arguments
  | .ok (.function function) =>
    match function code arguments with
    | .ok text => return text
    | .error failure => throw (.call failure)

/-- The text without embedded server code; what was removed is noted. -/
def escapeServerCode (code : List Char) : Work (List Char) := do
  let (clean, removed) := ServerCode.strip code
  if !removed.isEmpty then Work.warn (.removedServerCode removed)
  return clean

def compile (code : List Char) (bindings : Data.Value) (escape : Bool) : Work (List Char) := do
  let code ← if escape then escapeServerCode code else pure code
  let code ← renderWith blockRenderer code [bindings]
  match Directive.hostCode Directive.translatorName code with
  | .ok written => return written
  | .error fault => throw (.fault fault)

def templateOf (code : List Char) : Work Template := do
  let engine ← get
  let read := (engine.evaluator.template engine.environment code).mapError Failure.host
  if !engine.config.cacheEnabled.truthy then Work.ofExcept read
  else
    let key := Cache.keyOf code
    match Table.get? engine.templates key with
    | some template =>
      set { engine with templates := engine.templates.touch key }
      return template
    | none =>
      let template ← Work.ofExcept read
      let (kept, templates) := engine.templates.insert key template engine.config.cacheSize
      set { engine with templates := templates }
      Work.ofExcept (kept.mapError .host)
      return template

def ofHalt : Halt Failure → Failure
  | .problem problem => .host problem
  | .failure failure => failure

def hostVariables (bindings : Variables) : List (List Char × Host.Value) :=
  bindings.map fun (name, value) => (name, .ofData value)

def evaluate (code : List Char) (bindings : Variables) : Work (List Char) := do
  let template ← templateOf code
  let engine ← get
  let world : World := ⟨engine.place, engine.warnings, engine.context.layout.selected⟩
  let (result, world) :=
    engine.evaluator.render engine.environment template (hostVariables bindings) world
  -- What the code did to the files stays, even if it failed in the end.
  set { engine with place := world.place, warnings := world.warnings }
  Work.ofExcept (result.mapError ofHalt)

def finish (output : List Char) (renderers : List (List Char)) : Work (List Char) := do
  let output := if (← get).config.minifyOutput.truthy then Markup.minify output else output
  let output ← renderers.foldlM (fun output name => renderWith name output []) output
  if (← get).config.removeUnusedRules.truthy then
    let _ ← Work.ofBundler (Sheet.Bundler.prune output)
  return output

def variablesData (bindings : Variables) : Data.Value :=
  .map (bindings.map fun (name, value) => (.text (String.ofList name), value))

/-- Compile and run a source with variables, or with those of the view. -/
def renderCode (code : List Char) (bindings : Option Variables) (escape : Option Bool)
    (renderers : List (List Char)) : Work (List Char) := do
  let engine ← get
  let bindings := bindings.getD engine.context.view.bindings
  let compiled ←
    compile code (variablesData bindings) (escape.getD engine.config.escape.truthy)
  finish (← evaluate compiled bindings) renderers

def composer : Work Layout.Composer := do
  let engine ← get
  let limit ←
    match engine.config.maxLayoutDepth with
    | .int n => pure n
    | .bool b => pure (boolInt b)
    | _ => throw (.host .wrongType)
  return ⟨engine.places, engine.place.tree, limit⟩

def compose (layout source : List Char) : Work (List Char) := do
  Work.ofLogged ((← composer).compose layout source 0 false)

/-- The mark in a view that its layout takes the place of. -/
def contentMark? (text : List Char) : Option (Hit Unit) := do
  let rest ← after? ['{', '{'] text
  let rest ← after? "content".toList (skipBlanks rest)
  let rest ← after? ['}', '}'] (skipBlanks rest)
  return ⟨text.length - rest.length, ()⟩

/-- The host code of the selected layout, if one is selected. -/
def layoutCode : Work (List Char) := do
  let engine ← get
  let layout := engine.context.layout
  if layout.selected.isEmpty then return []
  else
    let source ← compose layout.selected []
    compile source (variablesData layout.bindings) engine.config.escape.truthy

/-- The host code of the selected view, if one is selected, with its layout put in. -/
def viewCode : Work (List Char) := do
  let engine ← get
  let view := engine.context.view
  if view.selected.isEmpty then return []
  else
    let source ← Work.ofExcept (engine.places.viewSource engine.place.tree view.selected)
    let source ← compose [] source
    let source ←
      if engine.context.layout.selected.isEmpty then pure source
      else do
        let layout ← compose engine.context.layout.selected []
        -- The layout is put into the view, and not the other way around.
        pure (substitute contentMark? (fun _ _ => layout) source)
    compile source (variablesData view.bindings) engine.config.escape.truthy

def renderLayout (renderers : List (List Char)) : Work (List Char) := do
  let bindings := (← get).context.layout.bindings
  finish (← evaluate (← layoutCode) bindings) renderers

def renderView (renderers : List (List Char)) : Work (List Char) := do
  let bindings := (← get).context.view.bindings
  finish (← evaluate (← viewCode) bindings) renderers

def prepareSheet (file : Files.Path) (href attributes after : List Char) : Work (List Char) := do
  let layout := (← get).context.layout.selected
  Work.ofBundler (Sheet.Bundler.prepare file href attributes after layout)

def invalidateCache : Work Unit :=
  modify fun engine => { engine with templates := [] }

/-- Keep templates from now on, or forget them and keep none. -/
def useCache (enabled : Data.Value) : Work Unit := do
  modify fun engine => { engine with config := { engine.config with cacheEnabled := enabled } }
  if !enabled.truthy then invalidateCache

def useSheetCache (enabled : Data.Value) : Work Unit :=
  modify fun engine => { engine with
    config := { engine.config with cacheSheets := enabled }
    place := { engine.place with
      bundler := { engine.place.bundler with useCache := enabled.truthy } } }

def removeUnusedRules (enabled : Data.Value) : Work Unit :=
  modify fun engine => { engine with
    config := { engine.config with removeUnusedRules := enabled } }

/-- Translate by another function, or by a value that is none. -/
def setTranslator (translator : GlobalEntry World Failure) : Work Unit :=
  modify fun engine => { engine with
    environment :=
      match translator with
      | .action action => engine.environment.setAction Directive.translatorName action
      | .value value => engine.environment.setGlobal Directive.translatorName value }

/-- Register a renderer; one that is given by its path is looked up in the catalogue. -/
def addRenderer (catalogue : Catalogue Renderer) (name : List Char) (target : Target Renderer) :
    Work Unit := do
  let engine ← get
  let renderers ← Work.ofExcept
    ((engine.renderers.add catalogue name target).mapError .registration)
  set { engine with renderers := renderers }

/-- Register a handler of blocks, in the same way. -/
def addBlock (catalogue : Catalogue Block.Handler) (name : Data.Value)
    (target : Target Block.Handler) : Work Unit := do
  let engine ← get
  let blocks ← Work.ofExcept
    ((engine.blocks.addNamed catalogue name target).mapError .registration)
  set { engine with blocks := blocks }

end Stencil.Engine
