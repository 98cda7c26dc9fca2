import Stencil.Host.Environment
import Stencil.Host.Test

/-!
# Evaluation

A template is run with variables in an environment.  Names are looked up among the variables of
the loops around, then among the variables given, then among the globals.  A run prints pieces of
text and may act on the world through the functions that it calls.
-/

namespace Stencil.Host

/-- Where a run stands: its variables, the newest first, what it has printed, the latest piece
first, and the world. -/
structure Run (σ : Type) where
  scope : List (List Char × Value)
  printed : List (List Char)
  world : σ

abbrev Step (σ ε α : Type) := ExceptT (Halt ε) (StateM (Run σ)) α

namespace Step

variable {σ ε : Type}

/-- The outcome of something that does not depend on the run. -/
def lift {α : Type} (result : Except Problem α) : Step σ ε α :=
  match result with
  | .ok value => pure value
  | .error problem => throw (.problem problem)

def truth (value : Value) : Step σ ε Bool :=
  lift value.truth

def act (action : Action σ ε) (arguments : Arguments) : Step σ ε Value := fun run =>
  match action arguments run.world with
  | (result, world) => (result, { run with world := world })

def assign (name : List Char) (value : Value) : Step σ ε Unit :=
  modify fun run =>
    -- A global value is not changed.
    if Table.contains run.scope name then { run with scope := Table.put run.scope name value }
    else run

def print (text : List Char) : Step σ ε Unit :=
  modify fun run => { run with printed := text :: run.printed }

/-- Do something for every item with its index, as long as nothing fails. -/
def forEach (index : Nat) (step : Nat → Value → Step σ ε Unit) :
    List Value → Step σ ε Unit
  | [], run => (.ok (), run)
  | item :: rest, run =>
    match step index item run with
    | (.ok (), run) => forEach (index + 1) step rest run
    | (.error halt, run) => (.error halt, run)

/-- Do something with more variables in front of the others; they are gone afterwards. -/
def within {α : Type} (bindings : List (List Char × Value)) (step : Step σ ε α) :
    Step σ ε α := fun run =>
  match step { run with scope := bindings ++ run.scope } with
  | (result, run) => (result, { run with scope := run.scope.drop bindings.length })

end Step

mutual

def LoopTarget.bindings (item : Value) :
    LoopTarget → Except Problem (List (List Char × Value))
  | .name name => .ok [(name, item)]
  | .parts targets => do targetVariables (← item.items) targets

/-- Every part of an item goes to a target of its own. -/
def targetVariables : List Value → List LoopTarget →
    Except Problem (List (List Char × Value))
  | [], [] => .ok []
  | item :: items, target :: targets => do
    let first ← target.bindings item
    return first ++ (← targetVariables items targets)
  | _, _ => .error .wrongValue

end

namespace Environment

variable {σ ε : Type}

def lookUp (environment : Environment σ ε) (scope : List (List Char × Value))
    (name : List Char) : Value :=
  match Table.get? scope name, Table.get? environment.globals name with
  | some value, _ => value
  | none, some value => value
  | none, none => .missingName environment.settings.guard.strict name

/-- Call a value.  If it belongs to the value of a variable, the variable takes the change. -/
def callValue (environment : Environment σ ε) (function : Value) (owner : Option (List Char))
    (arguments : Arguments) : Step σ ε Value :=
  match function with
  | .function name =>
    match Table.get? environment.actions name with
    | some action => Step.act action arguments
    | none => throw (.problem .wrongType)
  | .method receiver name => do
    let effect ← Step.lift (Method.call receiver name arguments)
    match effect.changed, owner with
    | some changed, some owner => Step.assign owner changed
    | _, _ => pure ()
    return effect.result
  | .absent absence => throw (.problem absence.problem)
  | _ => throw (.problem .wrongType)

/-- The arguments of a call: the last ones have the names. -/
def argumentsOf (values : List Value) (names : List (List Char)) : Arguments :=
  let plain := values.length - names.length
  ⟨values.take plain, names.zip (values.drop plain)⟩

/-- Something that is not there can be told only that it has been reached, and takes no named
arguments. -/
def unavailable (names : List (List Char)) : Step σ ε Value :=
  throw (.problem (if names.isEmpty then .unavailable else .wrongType))

def applyFilter (environment : Environment σ ε) (name : List Char) (values : List Value)
    (names : List (List Char)) : Step σ ε Value :=
  match Table.get? environment.filters name with
  | some (.standard filter) =>
    Step.lift (Filter.call environment.settings filter (argumentsOf values names))
  | some (.custom action) => Step.act action (argumentsOf values names)
  | none => unavailable names

def applyTest (environment : Environment σ ε) (name : List Char) (values : List Value)
    (names : List (List Char)) : Step σ ε Value :=
  if environment.tests.contains name then do
    return .bool (← Step.lift (Test.ask (String.ofList name) (argumentsOf values names)))
  else unavailable names

def ownerOf? : Expression → Option (List Char)
  | .member (.name name) _ => some name
  | _ => none

def mappingOf (keys values : List Value) : Except Problem Value := do
  let entries ← (keys.zip values).foldlM (fun table (key, value) => do
    match ← key.key? with
    | some key => return Table.put table key value
    | none => .error .wrongType) []
  return .map entries

/-- A choice without another branch has a lenient absence for it. -/
def unchosen : Value :=
  .absent ⟨"the inline if-expression evaluated to false and no else section was defined.".toList,
    false, false⟩

mutual

def evaluate (environment : Environment σ ε) : Expression → Step σ ε Value
  | .literal value => return .ofLiteral value
  | .name name => do return environment.lookUp (← get).scope name
  | .list items => do return .list (← environment.evaluateAll items)
  | .tuple items => do return .tuple (← environment.evaluateAll items)
  | .mapping keys values => do
    let keys ← environment.evaluateAll keys
    let values ← environment.evaluateAll values
    Step.lift (mappingOf keys values)
  | .negative e => do Step.lift (← environment.evaluate e).negative
  | .positive e => do Step.lift (← environment.evaluate e).positive
  | .negation e => do return .bool !(← Step.truth (← environment.evaluate e))
  | .both a b => do
    let left ← environment.evaluate a
    if ← Step.truth left then environment.evaluate b else return left
  | .either a b => do
    let left ← environment.evaluate a
    if ← Step.truth left then return left else environment.evaluate b
  | .arithmetic operator a b => do
    let left ← environment.evaluate a
    let right ← environment.evaluate b
    Step.lift (left.arithmetic operator right)
  | .joined parts => do
    let parts ← environment.evaluateAll parts
    if environment.settings.autoescape then Step.lift (Value.joined parts)
    else return .plain (← Step.lift (parts.mapM Value.shown)).flatten
  | .comparison first relations others => do
    let left ← environment.evaluate first
    environment.compare left relations others
  | .choice test whenTrue => do
    if ← Step.truth (← environment.evaluate test) then environment.evaluate whenTrue
    else return unchosen
  | .choiceElse test whenTrue whenFalse => do
    if ← Step.truth (← environment.evaluate test) then environment.evaluate whenTrue
    else environment.evaluate whenFalse
  | .member object name => do
    let object ← environment.evaluate object
    Step.lift (object.member environment.settings.guard name)
  | .item object index => do
    let object ← environment.evaluate object
    let index ← environment.evaluate index
    Step.lift (object.item environment.settings.guard index)
  | .slice object start stop step => do
    let object ← environment.evaluate object
    let start ← environment.evaluate start
    let stop ← environment.evaluate stop
    let step ← environment.evaluate step
    Step.lift (object.slice start stop step)
  | .call function arguments names => do
    let owner := ownerOf? function
    let function ← environment.evaluate function
    let arguments ← environment.evaluateAll arguments
    environment.callValue function owner (argumentsOf arguments names)
  | .filter name arguments names => do
    environment.applyFilter name (← environment.evaluateAll arguments) names
  | .test name arguments names => do
    environment.applyTest name (← environment.evaluateAll arguments) names

def evaluateAll (environment : Environment σ ε) : List Expression → Step σ ε (List Value)
  | [] => return []
  | e :: rest => do
    let first ← environment.evaluate e
    return first :: (← environment.evaluateAll rest)

/-- A chain of comparisons holds if each of them does; the first that does not ends it. -/
def compare (environment : Environment σ ε) (left : Value) (relations : List Relation) :
    List Expression → Step σ ε Value
  | [] => return .bool true
  | e :: rest => do
    let right ← environment.evaluate e
    if ← Step.lift (Value.related (relations.headD .equal) left right) then
      environment.compare right (relations.drop 1) rest
    else return .bool false

end

def printable (environment : Environment σ ε) (value : Value) : Except Problem (List Char) := do
  let text ← value.shown
  return if environment.settings.autoescape then Value.escaped value.isSafe text else text

def selected (environment : Environment σ ε) (target : LoopTarget)
    (condition : Option Expression) (items : List Value) : Step σ ε (List Value) :=
  match condition with
  | none => return items
  | some condition =>
    items.filterM fun item => do
      let bindings ← Step.lift (target.bindings item)
      Step.within bindings do Step.truth (← environment.evaluate condition)

mutual

/-- Run a node; `depth` counts the loops around it. -/
def runNode (environment : Environment σ ε) (depth : Nat) : Node → Step σ ε Unit
  | .data text => Step.print text
  | .print e => do
    let value ← environment.evaluate e
    Step.print (← Step.lift (environment.printable value))
  | .branch test body otherwise => do
    if ← Step.truth (← environment.evaluate test) then environment.runNodes depth body
    else environment.runNodes depth otherwise
  | .loop target source condition body otherwise => do
    let items ← Step.lift (← environment.evaluate source).items
    let items ← environment.selected target condition items
    if items.isEmpty then environment.runNodes depth otherwise
    else
      let length := items.length
      Step.forEach 0 (fun index item => do
        let bindings ← Step.lift (target.bindings item)
        Step.within ((loopName, .loop index length depth) :: bindings)
          (environment.runNodes (depth + 1) body)) items

def runNodes (environment : Environment σ ε) (depth : Nat) : List Node → Step σ ε Unit
  | [] => return
  | node :: rest => do
    environment.runNode depth node
    environment.runNodes depth rest

end

/-- Run a template: what it prints, and the world afterwards. -/
def render (environment : Environment σ ε) (template : Template)
    (bindings : List (List Char × Value)) (world : σ) :
    Except (Halt ε) (List Char) × σ :=
  match environment.runNodes 0 template.nodes ⟨bindings, [], world⟩ with
  | (.ok (), run) => (.ok run.printed.reverse.flatten, run.world)
  | (.error halt, run) => (.error halt, run.world)

end Environment

end Stencil.Host
