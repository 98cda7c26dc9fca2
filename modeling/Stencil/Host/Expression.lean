import Stencil.Host.Token

/-!
# Expressions and templates of host code

An expression computes a value; a template is a sequence of nodes that print.  Calls, filters and
tests keep their arguments in one list: those at its end that have names come after all others.
The subject of a filter or a test is its first argument.
-/

namespace Stencil.Host

inductive Literal where
  | none
  | bool (b : Bool)
  | int (n : Int)
  | float (x : Float)
  | text (s : List Char)

inductive Operator where
  | add
  | subtract
  | multiply
  | divide
  | divideFloor
  | modulo
  | power
  deriving DecidableEq

inductive Relation where
  | equal
  | unequal
  | less
  | atMost
  | greater
  | atLeast
  | isIn
  | isNotIn
  deriving DecidableEq

inductive Expression where
  | literal (value : Literal)
  | name (name : List Char)
  | list (items : List Expression)
  | tuple (items : List Expression)
  | mapping (keys values : List Expression)
  | negative (operand : Expression)
  | positive (operand : Expression)
  | negation (operand : Expression)
  | both (left right : Expression)
  | either (left right : Expression)
  | arithmetic (operator : Operator) (left right : Expression)
  | joined (parts : List Expression)
  | comparison (first : Expression) (relations : List Relation) (others : List Expression)
  | choice (test whenTrue : Expression)
  | choiceElse (test whenTrue whenFalse : Expression)
  | member (object : Expression) (name : List Char)
  | item (object index : Expression)
  | slice (object start stop step : Expression)
  | call (function : Expression) (arguments : List Expression) (names : List (List Char))
  | filter (name : List Char) (arguments : List Expression) (names : List (List Char))
  | test (name : List Char) (arguments : List Expression) (names : List (List Char))

inductive LoopTarget where
  | name (name : List Char)
  | parts (targets : List LoopTarget)

inductive Node where
  | data (text : List Char)
  | print (expression : Expression)
  | branch (test : Expression) (body otherwise : List Node)
  | loop (target : LoopTarget) (source : Expression) (condition : Option Expression)
      (body otherwise : List Node)

end Stencil.Host
