import Stencil.Data.Value
import Stencil.Host.Expression
import Stencil.Host.Problem

/-!
# Values of host code

The values that expressions compute.  A text is safe when it is known to hold markup on purpose:
safe text is printed as it is, any other text is escaped.  A name or member that is not there
gives an absence, which is a value too; how much may be done with it is up to its strictness.
-/

namespace Stencil.Host

open Stencil.Data

/-- What is known about a value that is not there. -/
structure Absence where
  message : List Char
  /-- Printing, testing, comparing and iterating are errors as well. -/
  strict : Bool
  /-- The value is there, but the sandbox hides it. -/
  hidden : Bool

namespace Absence

/-- Using an absence where a value is needed. -/
def problem (absence : Absence) : Problem :=
  if absence.hidden then .forbidden else .absent absence.message

/-- The absence of a strict value is a problem already where a lenient one is passed over. -/
def lenient {α : Type} (absence : Absence) (value : α) : Except Problem α :=
  if absence.strict then .error absence.problem else .ok value

end Absence

inductive Aspect where
  | keys
  | values
  | entries
  deriving DecidableEq

inductive Value where
  | none
  | bool (b : Bool)
  | int (n : Int)
  | float (x : Float)
  | text (safe : Bool) (s : List Char)
  | list (items : List Value)
  | tuple (items : List Value)
  | map (entries : List (Key × Value))
  | range (start stop step : Int)
  | stream (items : List Value)
  | view (aspect : Aspect) (items : List Value)
  | absent (absence : Absence)
  | function (name : List Char)
  | method (receiver : Value) (name : List Char)
  | loop (index length depth : Nat)

instance : Inhabited Value := ⟨.none⟩

namespace Value

/-- Text that is not safe. -/
def plain (s : List Char) : Value :=
  .text false s

def ofKey : Key → Value
  | .null => .none
  | .bool b => .bool b
  | .int n => .int n
  | .float x => .float x
  | .text s => plain s.toList

mutual

def ofData : Data.Value → Value
  | .null => .none
  | .bool b => .bool b
  | .int n => .int n
  | .float x => .float x
  | .text s => plain s.toList
  | .list items => .list (ofItems items)
  | .map entries => .map (ofEntries entries)

def ofItems : List Data.Value → List Value
  | [] => []
  | x :: xs => ofData x :: ofItems xs

def ofEntries : List (Key × Data.Value) → List (Key × Value)
  | [] => []
  | (k, x) :: xs => (k, ofData x) :: ofEntries xs

end

def ofLiteral : Literal → Value
  | .none => .none
  | .bool b => .bool b
  | .int n => .int n
  | .float x => .float x
  | .text s => plain s

/-- How many numbers a range holds; its step is not zero. -/
def rangeLength (start stop step : Int) : Nat :=
  if 0 < step then ((stop - start + step - 1) / step).toNat
  else ((start - stop - step - 1) / (-step)).toNat

def rangeItems (start stop step : Int) : List Value :=
  (List.range (rangeLength start stop step)).map fun (i : Nat) => .int (start + step * i)

def items : Value → Except Problem (List Value)
  | .list items | .tuple items | .stream items | .view _ items => .ok items
  | .text _ s => .ok (s.map fun c => plain [c])
  | .map entries => .ok (entries.map fun entry => ofKey entry.1)
  | .range start stop step => .ok (rangeItems start stop step)
  | .absent absence => absence.lenient []
  | _ => .error .wrongType

def size : Value → Except Problem Nat
  | .list items | .tuple items | .view _ items => .ok items.length
  | .text _ s => .ok s.length
  | .map entries => .ok entries.length
  | .range start stop step => .ok (rangeLength start stop step)
  | .absent absence => absence.lenient 0
  | .loop _ length _ => .ok length
  | _ => .error .wrongType

/-- Zero, and what holds nothing, is false. -/
def truth : Value → Except Problem Bool
  | .none => .ok false
  | .bool b => .ok b
  | .int n => .ok (n != 0)
  | .float x => .ok !(x == 0)
  | .text _ s => .ok !s.isEmpty
  | .list items | .tuple items | .view _ items => .ok !items.isEmpty
  | .map entries => .ok !entries.isEmpty
  | .range start stop step => .ok (rangeLength start stop step != 0)
  | .absent absence => absence.lenient false
  | _ => .ok true

/-- The key that a value is in a mapping; values that hold others are none, and only those that
cannot change may be looked up. -/
def key? : Value → Except Problem (Option Key)
  | .none => .ok (some .null)
  | .bool b => .ok (some (.bool b))
  | .int n => .ok (some (.int n))
  | .float x => .ok (some (.float x))
  | .text _ s => .ok (some (.text (String.ofList s)))
  | .list _ | .map _ => .error .wrongType
  | .absent absence => absence.lenient Option.none
  | _ => .ok Option.none

def aspectName : Aspect → List Char
  | .keys => "dict_keys".toList
  | .values => "dict_values".toList
  | .entries => "dict_items".toList

mutual

/-- The value written out, texts in quotes. -/
def quoted : Value → List Char
  | .none => ['N', 'o', 'n', 'e']
  | .bool b => truthWord b
  | .int n => intText n
  | .float x => Decimal.floatText x
  | .text false s => Text.quoted s
  | .text true s => "Markup(".toList ++ Text.quoted s ++ [')']
  | .list items => '[' :: commaSeparated (quotedItems items) ++ [']']
  | .tuple [item] => '(' :: quoted item ++ [',', ')']
  | .tuple items => '(' :: commaSeparated (quotedItems items) ++ [')']
  | .map entries => '{' :: commaSeparated (quotedEntries entries) ++ ['}']
  | .range start stop step =>
    let ends := [intText start, intText stop]
    "range(".toList ++ commaSeparated (if step = 1 then ends else ends ++ [intText step]) ++ [')']
  | .stream _ => "<iterator>".toList
  | .view aspect items =>
    aspectName aspect ++ '(' :: '[' :: commaSeparated (quotedItems items) ++ [']', ')']
  | .absent _ => "Undefined".toList
  | .function name => "<function ".toList ++ name ++ ['>']
  | .method _ name => "<method ".toList ++ name ++ ['>']
  | .loop index length _ =>
    "<LoopContext ".toList ++ Decimal.digitsOf (index + 1) ++ '/' :: Decimal.digitsOf length ++
      ['>']

def quotedItems : List Value → List (List Char)
  | [] => []
  | x :: xs => x.quoted :: quotedItems xs

def quotedEntries : List (Key × Value) → List (List Char)
  | [] => []
  | (k, x) :: xs => (k.quoted ++ ':' :: ' ' :: x.quoted) :: quotedEntries xs

end

def shown : Value → Except Problem (List Char)
  | .text _ s => .ok s
  | .absent absence => absence.lenient []
  | value => .ok value.quoted

def isSafe : Value → Bool
  | .text safe _ => safe
  | _ => false

def kindName : Value → List Char
  | .none => "None".toList
  | .bool _ => "bool object".toList
  | .int _ => "int object".toList
  | .float _ => "float object".toList
  | .text false _ => "str object".toList
  | .text true _ => "markupsafe.Markup object".toList
  | .list _ => "list object".toList
  | .tuple _ => "tuple object".toList
  | .map _ => "dict object".toList
  | .range .. => "range object".toList
  | .view aspect _ => aspectName aspect ++ " object".toList
  | _ => "object".toList

def missingName (strict : Bool) (name : List Char) : Value :=
  .absent ⟨Text.quoted name ++ " is undefined".toList, strict, false⟩

def missingMember (strict : Bool) (object : Value) (name : List Char) : Value :=
  .absent ⟨Text.quoted object.kindName ++ " has no attribute ".toList ++ Text.quoted name,
    strict, false⟩

def missingItem (strict : Bool) (object index : Value) : Value :=
  .absent ⟨object.kindName ++ " has no element ".toList ++ index.quoted, strict, false⟩

end Value

end Stencil.Host
