import Stencil.Host.Method

/-!
# Tests

A test is a question about a value, with at most one more argument.
-/

namespace Stencil.Host.Test

open Stencil.Host

def isNumber (value : Value) : Bool :=
  (Number.ofValue? value).isSome

def isIterable (value : Value) : Except Problem Bool :=
  match value with
  | .absent absence => absence.lenient true
  | _ =>
    match value.items with
    | .ok _ => .ok true
    | .error _ => .ok false

def isSequence : Value → Except Problem Bool
  | .absent absence => absence.lenient true
  | .text .. | .list _ | .tuple _ | .map _ | .range .. => .ok true
  | _ => .ok false

def leaves (remainder : Int) (value divisor : Value) : Except Problem Bool := do
  (← value.arithmetic .modulo divisor).equal (.int remainder)

def ask (name : String) (arguments : Arguments) : Except Problem Bool := do
  let unary : Except Problem Value := do
    match ← arguments.bind 1 ["value"] with
    | [some value] => return value
    | _ => .error .wrongType
  let related (relation : Relation) : Except Problem Bool := do
    match ← arguments.bind 2 ["a", "b"] with
    | [some a, some b] => Value.related relation a b
    | _ => .error .wrongType
  match name with
  | "boolean" =>
    match ← unary with
    | .bool _ => return true
    | _ => return false
  | "defined" =>
    match ← unary with
    | .absent _ => return false
    | _ => return true
  | "undefined" =>
    match ← unary with
    | .absent _ => return true
    | _ => return false
  | "divisibleby" =>
    match ← arguments.bind 2 ["value", "num"] with
    | [some value, some divisor] => leaves 0 value divisor
    | _ => .error .wrongType
  | "eq" => related .equal
  | "ne" => related .unequal
  | "lt" => related .less
  | "le" => related .atMost
  | "gt" => related .greater
  | "ge" => related .atLeast
  | "in" => related .isIn
  | "even" => leaves 0 (← unary) (.int 2)
  | "odd" => leaves 1 (← unary) (.int 2)
  | "false" =>
    match ← unary with
    | .bool b => return !b
    | _ => return false
  | "true" =>
    match ← unary with
    | .bool b => return b
    | _ => return false
  | "iterable" => isIterable (← unary)
  | "mapping" =>
    match ← unary with
    | .map _ => return true
    | _ => return false
  | "none" =>
    match ← unary with
    | .none => return true
    | _ => return false
  | "number" => return isNumber (← unary)
  | "sequence" => isSequence (← unary)
  | "string" =>
    match ← unary with
    | .text .. => return true
    | _ => return false
  | _ => .error .wrongType

end Stencil.Host.Test
