import Stencil.Host.Filter
import Stencil.Host.Statement

/-!
# Environments

An environment says what templates can use besides their variables: filters, tests and global
values.  A global value may be a function; what it does is an action on a world that the
environment does not look into.  A template that names a filter or a test which is not there is
refused, unless the name stands where it may never be reached.
-/

namespace Stencil.Host

/-- Why the evaluation of a template ends early: by a problem of its code, or by the failure of an
action. -/
inductive Halt (ε : Type) where
  | problem (problem : Problem)
  | failure (failure : ε)

abbrev Action (σ ε : Type) := Arguments → σ → Except (Halt ε) Value × σ

inductive FilterEntry (σ ε : Type) where
  | standard (name : String)
  | custom (action : Action σ ε)

structure Environment (σ ε : Type) where
  settings : Settings
  filters : List (List Char × FilterEntry σ ε)
  tests : List (List Char)
  globals : List (List Char × Value)
  actions : List (List Char × Action σ ε)

/-- An action that leaves the world alone. -/
def Action.ofFunction {σ ε : Type} (function : Arguments → Except Problem Value) : Action σ ε :=
  fun arguments world => ((function arguments).mapError .problem, world)

def rangeLimit : Nat := 100000

/-- The range from zero or a start up to a stop, by steps of one or more. -/
def makeRange (sandboxed : Bool) (arguments : Arguments) : Except Problem Value := do
  if !arguments.named.isEmpty then .error .wrongType
  let numbers ← arguments.values.mapM fun value =>
    match Number.ofValue? value with
    | some (.int n) => .ok n
    | _ => .error Problem.wrongType
  let (start, stop, step) ←
    match numbers with
    | [stop] => .ok (0, stop, 1)
    | [start, stop] => .ok (start, stop, 1)
    | [start, stop, step] => .ok (start, stop, step)
    | _ => .error Problem.wrongType
  if step == 0 then .error .wrongValue
  else if sandboxed && rangeLimit < Value.rangeLength start stop step then .error .overflow
  else return .range start stop step

def makeMap (arguments : Arguments) : Except Problem Value := do
  let entries ←
    match arguments.values with
    | [] => .ok []
    | [.map entries] => .ok entries
    | [value] => do
      (← value.items).foldlM (fun table pair => do
        let (key, value) ← Filter.pairOf pair
        match ← key.key? with
        | some key => return Table.put table key value
        | none => .error .wrongType) []
    | _ => .error .wrongType
  return .map (arguments.named.foldl
    (fun table (name, value) => Table.put table (.text (String.ofList name)) value) entries)

mutual

/-- Every filter and test in the expression is there.  Inside of a choice a missing one is only a
problem when it is reached. -/
def Expression.isKnown (filters tests : List (List Char)) (soft : Bool) : Expression → Bool
  | .literal _ | .name _ => true
  | .list items | .tuple items | .joined items => allKnown filters tests soft items
  | .mapping keys values => allKnown filters tests soft keys && allKnown filters tests soft values
  | .negative e | .positive e | .negation e | .member e _ => e.isKnown filters tests soft
  | .both a b | .either a b | .arithmetic _ a b | .item a b =>
    a.isKnown filters tests soft && b.isKnown filters tests soft
  | .comparison first _ others =>
    first.isKnown filters tests soft && allKnown filters tests soft others
  | .choice a b => a.isKnown filters tests true && b.isKnown filters tests true
  | .choiceElse a b c =>
    a.isKnown filters tests true && b.isKnown filters tests true && c.isKnown filters tests true
  | .slice a b c d =>
    a.isKnown filters tests soft && b.isKnown filters tests soft &&
      c.isKnown filters tests soft && d.isKnown filters tests soft
  | .call function arguments _ =>
    function.isKnown filters tests soft && allKnown filters tests soft arguments
  | .filter name arguments _ =>
    (soft || filters.contains name) && allKnown filters tests soft arguments
  | .test name arguments _ =>
    (soft || tests.contains name) && allKnown filters tests soft arguments

def allKnown (filters tests : List (List Char)) (soft : Bool) : List Expression → Bool
  | [] => true
  | e :: rest => e.isKnown filters tests soft && allKnown filters tests soft rest

end

/-- The name that a loop gives to its state, and that nothing can be assigned to. -/
def loopName : List Char := "loop".toList

mutual

def LoopTarget.names : LoopTarget → List (List Char)
  | .name name => [name]
  | .parts targets => allNames targets

def allNames : List LoopTarget → List (List Char)
  | [] => []
  | target :: rest => target.names ++ allNames rest

end

mutual

/-- The node uses only what is there, and its loops do not assign to their own state. -/
def Node.isSound (filters tests : List (List Char)) (soft : Bool) : Node → Bool
  | .data _ => true
  | .print e => e.isKnown filters tests soft
  | .branch test body otherwise =>
    test.isKnown filters tests true && allSound filters tests true body &&
      allSound filters tests true otherwise
  | .loop target source condition body otherwise =>
    !target.names.contains loopName && source.isKnown filters tests soft &&
      condition.all (·.isKnown filters tests false) && allSound filters tests false body &&
      allSound filters tests false otherwise

def allSound (filters tests : List (List Char)) (soft : Bool) : List Node → Bool
  | [] => true
  | node :: rest => node.isSound filters tests soft && allSound filters tests soft rest

end

structure Template where
  nodes : List Node

/-- The template of a source that uses none but the given filters and tests. -/
def readTemplate (filters tests : List (List Char)) (source : List Char) :
    Except Problem Template :=
  match (Token.ofSource? source).bind Grammar.template? with
  | none => .error .syntaxError
  | some nodes =>
    if allSound filters tests false nodes then .ok ⟨nodes⟩ else .error .assertion

namespace Environment

variable {σ ε : Type}

def template (environment : Environment σ ε) (source : List Char) : Except Problem Template :=
  readTemplate (Table.keys environment.filters) environment.tests source

end Environment

end Stencil.Host
