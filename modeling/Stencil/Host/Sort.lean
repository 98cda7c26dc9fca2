import Stencil.Host.Operation
import Stencil.Text.Capital

/-!
# Sorted and distinct values

Texts are compared by their small letters.  Sorting keeps equal values in their order, also when
it goes downwards, and fails when two values have no order.
-/

namespace Stencil.Host

open Stencil.Text

def sortKey : Value → Value
  | .text safe s => .text safe (lowerText s)
  | value => value

/-- Insert a value behind all those that do not come after it. -/
def insertSorted (value : Value) : List Value → Except Problem (List Value)
  | [] => .ok [value]
  | other :: rest => do
    if ← (sortKey value).less (sortKey other) then return value :: other :: rest
    else return other :: (← insertSorted value rest)

def sortValues (values : List Value) : Except Problem (List Value) :=
  values.foldlM (fun sorted value => insertSorted value sorted) []

def sortDirected (downwards : Bool) (values : List Value) : Except Problem (List Value) :=
  if downwards then do return (← sortValues values.reverse).reverse
  else sortValues values

/-- The first of each group of equal values. -/
def distinct (values : List Value) : Except Problem (List Value) := do
  let keys ← values.mapM fun value => (sortKey value).key?
  let _ := keys
  return values.foldl
    (fun kept value =>
      if kept.any fun other => (sortKey other).same (sortKey value) then kept
      else kept ++ [value]) []

end Stencil.Host
