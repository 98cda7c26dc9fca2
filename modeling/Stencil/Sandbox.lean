import Stencil.Host.Evaluate

/-!
# Sandboxes

A policy lists the filters, tests and global values that templates may use, and says how values
are printed.  A sandbox makes environments under a policy of its own; what is registered with it
is allowed from then on, and comes into the environments that are made afterwards.
-/

namespace Stencil

open Stencil.Host

structure Policy where
  allowUnsafeFilters : Bool
  allowUnsafeGlobals : Bool
  filters : List (List Char)
  tests : List (List Char)
  globals : List (List Char)
  autoescape : Bool
  strictUndefined : Bool

namespace Policy

def standardFilters : List String :=
  ["abs", "capitalize", "default", "escape", "first", "float", "format", "int", "join", "last",
   "length", "list", "lower", "replace", "reverse", "round", "safe", "sort", "string",
   "striptags", "sum", "title", "trim", "truncate", "unique", "upper", "urlencode", "wordcount"]

def standardTests : List String :=
  ["boolean", "defined", "divisibleby", "eq", "even", "false", "ge", "gt", "in", "iterable", "le",
   "lt", "mapping", "ne", "none", "number", "odd", "sequence", "string", "true", "undefined"]

def standardGlobals : List String :=
  ["range", "dict"]

def standard : Policy where
  allowUnsafeFilters := false
  allowUnsafeGlobals := false
  filters := standardFilters.map String.toList
  tests := standardTests.map String.toList
  globals := standardGlobals.map String.toList
  autoescape := true
  strictUndefined := false

def strict : Policy :=
  { standard with strictUndefined := true }

/-- More filters, for development. -/
def permissive : Policy :=
  { standard with
    filters := standard.filters ++ ["tojson".toList, "pprint".toList, "dictsort".toList] }

def allowsFilter (policy : Policy) (name : List Char) : Bool :=
  policy.allowUnsafeFilters || policy.filters.contains name

def allowsTest (policy : Policy) (name : List Char) : Bool :=
  policy.tests.contains name

def allowsGlobal (policy : Policy) (name : List Char) : Bool :=
  policy.allowUnsafeGlobals || policy.globals.contains name

end Policy

/-- The filters that exist before any is registered. -/
def existingFilters : List String :=
  ["abs", "attr", "batch", "capitalize", "center", "count", "d", "default", "dictsort", "e",
   "escape", "filesizeformat", "first", "float", "forceescape", "format", "groupby", "indent",
   "int", "items", "join", "last", "length", "list", "lower", "map", "max", "min", "pprint",
   "random", "reject", "rejectattr", "replace", "reverse", "round", "safe", "select",
   "selectattr", "slice", "sort", "string", "striptags", "sum", "title", "tojson", "trim",
   "truncate", "unique", "upper", "urlencode", "urlize", "wordcount", "wordwrap", "xmlattr"]

def existingTests : List String :=
  ["odd", "even", "divisibleby", "defined", "undefined", "filter", "test", "none", "boolean",
   "false", "true", "integer", "float", "lower", "upper", "string", "mapping", "number",
   "sequence", "iterable", "callable", "sameas", "escaped", "in", "==", "eq", "equalto", "!=",
   "ne", ">", "gt", "greaterthan", "ge", ">=", "<", "lt", "lessthan", "<=", "le"]

/-- The global values that exist before any is registered; all of them are functions. -/
def existingGlobals : List String :=
  ["range", "dict", "lipsum", "cycler", "joiner", "namespace"]

/-- A value that is registered as global: data, or a function. -/
inductive GlobalEntry (σ ε : Type) where
  | value (value : Value)
  | action (action : Action σ ε)

structure Sandbox (σ ε : Type) where
  policy : Policy
  immutable : Bool
  sandboxed : Bool
  filters : List (List Char × Action σ ε)
  globals : List (List Char × GlobalEntry σ ε)

namespace Sandbox

variable {σ ε : Type}

def ofPolicy (policy : Policy) (immutable sandboxed : Bool) : Sandbox σ ε :=
  ⟨policy, immutable, sandboxed, [], []⟩

def registerFilter (sandbox : Sandbox σ ε) (name : List Char) (action : Action σ ε) :
    Sandbox σ ε :=
  { sandbox with
    filters := Table.put sandbox.filters name action
    policy := { sandbox.policy with filters := name :: sandbox.policy.filters } }

def registerGlobal (sandbox : Sandbox σ ε) (name : List Char) (entry : GlobalEntry σ ε) :
    Sandbox σ ε :=
  { sandbox with
    globals := Table.put sandbox.globals name entry
    policy := { sandbox.policy with globals := name :: sandbox.policy.globals } }

/-- What the functions among the existing globals do. -/
def existingActions (sandboxed : Bool) : List (List Char × Action σ ε) :=
  [("range".toList, Action.ofFunction (makeRange sandboxed)),
   ("dict".toList, Action.ofFunction makeMap)]

def environment (sandbox : Sandbox σ ε) : Environment σ ε :=
  let policy := sandbox.policy
  let filters := sandbox.filters.foldl
    (fun table (name, action) => Table.put table name (FilterEntry.custom action))
    (existingFilters.map fun name => (name.toList, .standard name))
  let globals := sandbox.globals.foldl
    (fun table (name, entry) =>
      Table.put table name
        (match entry with
          | .value value => value
          | .action _ => .function name))
    (existingGlobals.map fun name => (name.toList, Value.function name.toList))
  let actions := sandbox.globals.foldl
    (fun table (name, entry) =>
      match entry with
      | .value _ => table
      | .action action => Table.put table name action)
    (existingActions sandbox.sandboxed)
  { settings :=
      { autoescape := policy.autoescape
        guard := ⟨policy.strictUndefined, sandbox.sandboxed,
          sandbox.sandboxed && sandbox.immutable⟩ }
    filters := filters.filter fun entry => policy.allowsFilter entry.1
    tests := (existingTests.map String.toList).filter policy.allowsTest
    globals := globals.filter fun entry => policy.allowsGlobal entry.1
    actions := actions }

end Sandbox

namespace Host.Environment

variable {σ ε : Type}

/-- Give a global name to a function, whatever it was before. -/
def setAction (environment : Environment σ ε) (name : List Char) (action : Action σ ε) :
    Environment σ ε :=
  { environment with
    globals := Table.put environment.globals name (.function name)
    actions := Table.put environment.actions name action }

def setGlobal (environment : Environment σ ε) (name : List Char) (value : Value) :
    Environment σ ε :=
  { environment with globals := Table.put environment.globals name value }

end Host.Environment

end Stencil
