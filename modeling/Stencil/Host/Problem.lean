/-!
# Problems of host code

Why host code cannot be read or cannot go on.
-/

namespace Stencil.Host

inductive Problem where
  /-- The code does not follow the grammar. -/
  | syntaxError
  /-- The code follows the grammar and yet cannot be run, whatever the variables. -/
  | assertion
  /-- A filter or test was reached that does not exist. -/
  | unavailable
  /-- An absent value was used. -/
  | absent (message : List Char)
  /-- Something was used that the sandbox does not allow. -/
  | forbidden
  | wrongType
  | wrongValue
  | wrongMember
  | wrongFilterArgument
  | brokenPromise
  | divisionByZero
  | overflow
  deriving DecidableEq

end Stencil.Host
