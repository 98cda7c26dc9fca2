import Stencil.Command.Arguments
import Stencil.Command.Help
import Stencil.Config.Load
import Stencil.Engine.Render
import Stencil.Script.Minify

/-!
# The command line

There are commands to compile a file into host code, to minify a file, and to render a view.  A
command prints its output.  Misuse is answered by status 2, and what is wrong with a template or
with the configuration by a line that says so and status 1.  Whatever else fails is a failure of
the command itself.  The readers of files, the evaluator and the lookup of templates are given.
-/

namespace Stencil.Command

open Stencil.Files Stencil.Text

structure Outcome where
  status : Nat
  output : List Char

inductive Failure where
  | settings (failure : Config.Failure)
  | engine (failure : Stencil.Failure)

/-- What a command comes to, the files after it, and the warnings on the way. -/
structure Report where
  result : Except Failure Outcome
  tree : Tree
  warnings : List Warning

structure Packages where
  readers : Config.Readers := .standard
  evaluator : Host.Evaluator Engine.World Stencil.Failure := .standard
  lookup : Layout.Lookup := Layout.source?

def Packages.parts (packages : Packages) (config : Config.TemplateConfig) (tree : Tree) :
    Engine.Parts :=
  { config := config, evaluator := packages.evaluator, lookup := packages.lookup, tree := tree }

structure Surroundings where
  environment : Config.Bindings
  tree : Tree

namespace Surroundings

/-- A command that leaves the files as they are. -/
def report (given : Surroundings) (result : Except Failure Outcome) : Report :=
  ⟨result, given.tree, []⟩

def success (given : Surroundings) (output : List Char) : Report :=
  given.report (.ok ⟨0, output⟩)

def misuse (given : Surroundings) (output : List Char) : Report :=
  given.report (.ok ⟨2, output⟩)

def hasFile (given : Surroundings) (path : List Char) : Bool :=
  given.tree.kindAt? path == some .file

end Surroundings

def templateMessage? : Host.Problem → Option (List Char)
  | .absent message => some message
  | .syntaxError => some "the host code of the template is malformed".toList
  | .assertion => some "the host code of the template cannot be run".toList
  | .unavailable => some "a filter or test is not available".toList
  | .forbidden => some "the access is unsafe".toList
  | .wrongFilterArgument => some "a filter got a wrong argument".toList
  | _ => none

/-- What is said of a failure that is one of the template. -/
def failureMessage? : Stencil.Failure → Option (List Char)
  | .fault fault => some fault.report.text.toList
  | .host problem => templateMessage? problem
  | _ => none

def ofFailure (printed : List Char) (failure : Stencil.Failure) : Except Failure Outcome :=
  match failureMessage? failure with
  | some message => .ok ⟨1, printed ++ failureLine message⟩
  | none => .error (.engine failure)

/-- Do work on a new engine, after something has been printed. -/
def onEngine (packages : Packages) (given : Surroundings) (config : Config.TemplateConfig)
    (printed : List Char) (work : Engine.Work (List Char)) : Report :=
  match Engine.State.ofParts (packages.parts config given.tree) with
  | .error failure => given.report (.error (.engine failure))
  | .ok engine =>
    let (result, engine) := work.run.run engine
    let result :=
      match result with
      | .ok output => .ok ⟨0, printed ++ output⟩
      | .error failure => ofFailure printed failure
    ⟨result, engine.place.tree, engine.warnings⟩

def helpForm : OptionForm :=
  { word := "--help".toList }

def compile (packages : Packages) (given : Surroundings) (arguments : Arguments) : Report :=
  match arguments.operands with
  | [file] =>
    if !given.hasFile file then given.misuse []
    else
      match given.tree.readText (Path.ofText file) with
      | .error problem => given.report (.error (.engine (.file problem)))
      | .ok text =>
        onEngine packages given {} [] (Engine.compile text .null (!arguments.has "--no-escape"))
  | _ => given.misuse []

def minifier? (kind : List Char) : Option (List Char → List Char) :=
  match String.ofList kind with
  | "html" => some Markup.minify
  | "css" => some Sheet.minify
  | "js" => some Script.minify
  | _ => none

def minify (given : Surroundings) (arguments : Arguments) : Report :=
  match arguments.operands with
  | [kind, file] =>
    match minifier? kind with
    | none => given.misuse []
    | some minifier =>
      if !given.hasFile file then given.misuse []
      else
        match given.tree.readText (Path.ofText file) with
        | .error problem => given.report (.error (.engine (.file problem)))
        | .ok text => given.success (minifier text ++ ['\n'])
  | _ => given.misuse []

/-- What a rendering is asked for. -/
structure RenderOptions where
  view : List Char
  viewsDirectory : Option (List Char) := none
  layout : Option (List Char) := none
  bindings : List (List Char) := []
  minify : Bool := false
  config : Option (List Char) := none

def RenderOptions.ofArguments? (arguments : Arguments) : Option RenderOptions :=
  match arguments.operands with
  | [view] => some
    { view := view
      viewsDirectory := arguments.value? "--views-dir"
      layout := arguments.value? "--layout"
      bindings := arguments.values "--var"
      minify := arguments.has "--minify"
      config := arguments.value? "--config" }
  | _ => none

def engineOptions (options : RenderOptions) : Config.Settings :=
  let views :=
    match options.viewsDirectory with
    | some directory =>
      [(Data.Key.text "views_dir", Data.Value.text (String.ofList (Path.ofText directory).text))]
    | none => []
  let minified :=
    if options.minify then [(Data.Key.text "minify_output", Data.Value.bool true)] else []
  views ++ minified

def configuration (readers : Config.Readers) (given : Surroundings) (options : RenderOptions) :
    Logged Config.Failure Config.TemplateConfig := do
  let sources : Config.Sources :=
    { patterns := options.config.toList
      environment := given.environment
      overrides := [(.text "templates", .map (engineOptions options))]
      readers := readers }
  let settings ← sources.load given.tree
  Logged.ofExcept (settings.templateConfig.mapError .problem)

/-- The variable that an argument sets, a name and a value around an equals sign. -/
def namedValue? (argument : List Char) : Option (List Char × List Char) :=
  (splitFirst? ['='] argument).map fun (name, value) => (trim name, value)

def renderable (given : Surroundings) (options : RenderOptions) : Bool :=
  (match options.viewsDirectory with
    | some directory => !given.hasFile directory
    | none => true) &&
  (match options.config with
    | some file => given.hasFile file
    | none => true)

def renderPage (view layout : List Char) (bindings : List (List Char × List Char)) :
    Engine.Work (List Char) := do
  modify fun engine =>
    let selected := engine.context.view.select view
    let filled := bindings.foldl
      (fun selection (name, value) => selection.set name (.text (String.ofList value))) selected
    { engine with context := ⟨engine.context.layout.select layout, filled⟩ }
  return (← Engine.renderView []) ++ ['\n']

def renderBy (packages : Packages) (given : Surroundings) (verbose : Bool)
    (options : RenderOptions) (config : Config.TemplateConfig) : Report :=
  let layout := options.layout.getD []
  let details :=
    detailLine "Views".toList config.viewsDirectory.shown ++
      detailLine "Layout".toList (if layout.isEmpty then ['-'] else layout)
  let printed := if verbose then details else []
  match options.bindings.mapM namedValue? with
  | some bindings =>
    onEngine packages given config printed (renderPage options.view layout bindings)
  | none =>
    match Engine.State.ofParts (packages.parts config given.tree) with
    | .error failure => given.report (.error (.engine failure))
    | .ok _ => given.misuse printed

def render (packages : Packages) (given : Surroundings) (verbose : Bool)
    (options : RenderOptions) : Report :=
  if !renderable given options then given.misuse []
  else
    let (result, warnings) := (configuration packages.readers given options).outcome
    let report :=
      match result with
      | .ok config => renderBy packages given verbose options config
      | .error (.problem problem) =>
        given.report (.ok ⟨1, failureLine problem.message⟩)
      | .error failure => given.report (.error (.settings failure))
    { report with warnings := warnings ++ report.warnings }

/-- A command, with the options that it knows and words on its use. -/
structure Subcommand where
  forms : List OptionForm
  help : String
  run : Packages → Surroundings → Bool → Arguments → Report

def subcommand? (name : List Char) : Option Subcommand :=
  match String.ofList name with
  | "compile" => some
    { forms := [{ word := "--no-escape".toList }]
      help := commandHelp "compile [OPTIONS] FILE" "Print compiled view code for FILE."
      run := fun packages given _ arguments => compile packages given arguments }
  | "minify" => some
    { forms := []
      help := commandHelp "minify [OPTIONS] KIND FILE" "Print minified FILE."
      run := fun _ given _ arguments => minify given arguments }
  | "render" => some
    { forms :=
        [{ word := "--views-dir".toList, takesValue := true },
         { word := "--layout".toList, takesValue := true },
         { word := "--var".toList, takesValue := true },
         { word := "--minify".toList },
         { word := "--config".toList, takesValue := true }]
      help := commandHelp "render [OPTIONS] VIEW" "Render VIEW and print the output."
      run := fun packages given verbose arguments =>
        match RenderOptions.ofArguments? arguments with
        | some options => render packages given verbose options
        | none => given.misuse [] }
  | _ => none

def Subcommand.start (command : Subcommand) (packages : Packages) (given : Surroundings)
    (verbose : Bool) (arguments : List (List Char)) : Report :=
  match Arguments.read? (helpForm :: command.forms) true arguments with
  | none => given.misuse []
  | some read =>
    if read.has "--help" then given.success command.help.toList
    else command.run packages given verbose read

def leadingForms : List OptionForm :=
  [helpForm, { word := "--version".toList }, { word := "--verbose".toList, letter := some 'v' }]

/-- What an option before the command prints instead of running one. -/
def leadingOutput? (option : List Char × List Char) : Option String :=
  match String.ofList option.1 with
  | "--help" => some help
  | "--version" => some version
  | _ => none

/-- A name that begins with a sign is taken for an option that comes too late. -/
def isLateOption (name : List Char) : Bool :=
  name.head?.any (!isAlphanumeric ·)

def runBy (packages : Packages) (given : Surroundings) (arguments : List (List Char)) : Report :=
  if arguments.isEmpty then given.success help.toList
  else
    match Arguments.read? leadingForms false arguments with
    | none => given.misuse []
    | some leading =>
      match leading.options.findSome? leadingOutput?, leading.operands with
      | some output, _ => given.success output.toList
      | none, [] => given.misuse []
      | none, name :: rest =>
        match subcommand? name with
        | some command => command.start packages given (leading.has "--verbose") rest
        | none => if isLateOption name then given.success help.toList else given.misuse []

/-- The commands with the standard packages. -/
def run : Surroundings → List (List Char) → Report :=
  runBy {}

end Stencil.Command
