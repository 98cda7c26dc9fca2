import Stencil.Decimal.Arithmetic
import Stencil.Host.Value
import Stencil.Markup.Escape

/-!
# Operations on values

Truth values count as one and zero.  A number of either kind may meet one of the other; texts,
lists and tuples can be joined to their like and repeated.  When safe text meets any other text,
the other one is escaped, and the result is safe.
-/

namespace Stencil.Host

open Stencil.Data Stencil.Decimal

inductive Number where
  | int (n : Int)
  | float (x : Float)

namespace Number

def ofValue? : Value → Option Number
  | .bool b => some (.int (boolInt b))
  | .int n => some (.int n)
  | .float x => some (.float x)
  | _ => none

def value : Number → Value
  | .int n => .int n
  | .float x => .float x

def toFloat : Number → Except Problem Float
  | .float x => .ok x
  | .int n =>
    let x := floatOfInt n
    if x.isInf then .error .overflow else .ok x

/-- Numbers are compared exactly. -/
def less (a b : Number) : Bool :=
  match a, b with
  | .int m, .int n => m < n
  | .float x, .float y => x < y
  | .int n, .float y =>
    match Ratio.ofFloat? y with
    | some ratio => (Ratio.ofInt n).less ratio
    | none => y == 1.0 / 0.0
  | .float x, .int n =>
    match Ratio.ofFloat? x with
    | some ratio => ratio.less (Ratio.ofInt n)
    | none => x == -1.0 / 0.0

def same (a b : Number) : Bool :=
  match a, b with
  | .int m, .int n => m == n
  | .float x, .float y => x == y
  | .int n, .float x | .float x, .int n => floatIsInt x n

/-- The quotient of two integers as a double, rounded once. -/
def quotient (m n : Int) : Except Problem Float :=
  if n == 0 then .error .divisionByZero
  else
    let x := Ratio.toFloat ⟨if n < 0 then -m else m, n.natAbs⟩ false
    if x.isInf then .error .overflow else .ok x

def floatPower (x y : Float) : Except Problem Value :=
  if x == 0 && y < 0 then .error .divisionByZero
  else
    let z := x.pow y
    if z.isNaN && !x.isNaN && !y.isNaN then .error .wrongValue
    else if z.isInf && !x.isInf && !y.isInf then .error .overflow
    else .ok (.float z)

def integerOperation (operator : Operator) (m n : Int) : Except Problem Value :=
  match operator with
  | .add => .ok (.int (m + n))
  | .subtract => .ok (.int (m - n))
  | .multiply => .ok (.int (m * n))
  | .divide => (quotient m n).map .float
  | .divideFloor => if n == 0 then .error .divisionByZero else .ok (.int (m.fdiv n))
  | .modulo => if n == 0 then .error .divisionByZero else .ok (.int (m.fmod n))
  | .power =>
    if 0 ≤ n then .ok (.int (Int.pow m n.toNat))
    else do
      let x ← toFloat (.int m)
      let y ← toFloat (.int n)
      floatPower x y

def floatOperation (operator : Operator) (x y : Float) : Except Problem Value :=
  match operator with
  | .add => .ok (.float (x + y))
  | .subtract => .ok (.float (x - y))
  | .multiply => .ok (.float (x * y))
  | .divide => if y == 0 then .error .divisionByZero else .ok (.float (x / y))
  | .divideFloor =>
    if y == 0 then .error .divisionByZero else .ok (.float (floorDivision x y).1)
  | .modulo =>
    if y == 0 then .error .divisionByZero else .ok (.float (floorDivision x y).2)
  | .power => floatPower x y

def operation (operator : Operator) (a b : Number) : Except Problem Value :=
  match a, b with
  | .int m, .int n => integerOperation operator m n
  | _, _ => do
    let x ← a.toFloat
    let y ← b.toFloat
    floatOperation operator x y

end Number

namespace Value

def escaped (safe : Bool) (s : List Char) : List Char :=
  if safe then s else Markup.escape Markup.numbered s

def repeated {α : Type} (items : List α) (times : Int) : List α :=
  (List.replicate times.toNat items).flatten

/-- Join or repeat values that are no numbers. -/
def joinOperation (operator : Operator) (a b : Value) : Except Problem Value :=
  match operator, a, b with
  | .add, .text false s, .text false t => .ok (.text false (s ++ t))
  | .add, .text safe s, .text safe' t =>
    .ok (.text true (escaped safe s ++ escaped safe' t))
  | .add, .list xs, .list ys => .ok (.list (xs ++ ys))
  | .add, .tuple xs, .tuple ys => .ok (.tuple (xs ++ ys))
  | .multiply, .text safe s, other | .multiply, other, .text safe s =>
    match Number.ofValue? other with
    | some (.int n) => .ok (.text safe (repeated s n))
    | _ => .error .wrongType
  | .multiply, .list xs, other | .multiply, other, .list xs =>
    match Number.ofValue? other with
    | some (.int n) => .ok (.list (repeated xs n))
    | _ => .error .wrongType
  | .multiply, .tuple xs, other | .multiply, other, .tuple xs =>
    match Number.ofValue? other with
    | some (.int n) => .ok (.tuple (repeated xs n))
    | _ => .error .wrongType
  | _, _, _ => .error .wrongType

def absence? : Value → Option Absence
  | .absent absence => some absence
  | _ => Option.none

def arithmetic (operator : Operator) (a b : Value) : Except Problem Value :=
  match a.absence?, b.absence?, Number.ofValue? a, Number.ofValue? b with
  | some absence, _, _, _ | _, some absence, _, _ => .error absence.problem
  | _, _, some x, some y => x.operation operator y
  | _, _, _, _ => joinOperation operator a b

def negative (a : Value) : Except Problem Value :=
  match a.absence?, Number.ofValue? a with
  | some absence, _ => .error absence.problem
  | _, some (.int n) => .ok (.int (-n))
  | _, some (.float x) => .ok (.float (-x))
  | _, _ => .error .wrongType

/-- A number as it is; a truth value becomes one. -/
def positive (a : Value) : Except Problem Value :=
  match a.absence?, Number.ofValue? a with
  | some absence, _ => .error absence.problem
  | _, some x => .ok x.value
  | _, _ => .error .wrongType

mutual

/-- Equality: numbers by value, texts whether they are safe or not, mappings in any order. -/
def same : Value → Value → Bool
  | .none, .none => true
  | .text _ s, .text _ t => s == t
  | .list xs, .list ys => sameItems xs ys
  | .tuple xs, .tuple ys => sameItems xs ys
  | .map xs, .map ys => xs.length == ys.length && sameEntries xs ys
  | .range a b c, .range a' b' c' =>
    let length := rangeLength a b c
    length == rangeLength a' b' c' &&
      (length == 0 || (a == a' && (length == 1 || c == c')))
  | .absent _, .absent _ => true
  | .function f, .function g => f == g
  | .bool a, .bool b => a == b
  | .bool a, .int n | .int n, .bool a => boolInt a == n
  | .bool a, .float x | .float x, .bool a => floatIsInt x (boolInt a)
  | .int m, .int n => m == n
  | .int n, .float x | .float x, .int n => floatIsInt x n
  | .float x, .float y => x == y
  | _, _ => false

def sameItems : List Value → List Value → Bool
  | [], [] => true
  | x :: xs, y :: ys => x.same y && sameItems xs ys
  | _, _ => false

def sameEntries : List (Key × Value) → List (Key × Value) → Bool
  | [], _ => true
  | (k, x) :: xs, ys =>
    (match Table.get? ys k with
      | some y => x.same y
      | Option.none => false) && sameEntries xs ys

end

/-- Equality as an operation: a strict absence is equal to nothing. -/
def equal (a b : Value) : Except Problem Bool :=
  match a, b with
  | .absent absence, _ => absence.lenient (a.same b)
  | _, .absent absence => absence.lenient (a.same b)
  | _, _ => .ok (a.same b)

/-- The order of two texts is the order of their characters. -/
def textLess (s t : List Char) : Bool :=
  List.lex s t fun a b => decide (a.toNat < b.toNat)

mutual

/-- Whether a value comes before another.  Only numbers, texts, lists and tuples have an order,
each among their like. -/
def less : Value → Value → Except Problem Bool
  | .text _ s, .text _ t => .ok (textLess s t)
  | .list xs, .list ys => lessItems xs ys
  | .tuple xs, .tuple ys => lessItems xs ys
  | .absent absence, _ => .error absence.problem
  | a, b =>
    match b.absence?, Number.ofValue? a, Number.ofValue? b with
    | some absence, _, _ => .error absence.problem
    | _, some x, some y => .ok (x.less y)
    | _, _, _ => .error .wrongType

/-- The first items that differ decide, and then the lengths. -/
def lessItems : List Value → List Value → Except Problem Bool
  | [], ys => .ok !ys.isEmpty
  | _ :: _, [] => .ok false
  | x :: xs, y :: ys => if x.same y then lessItems xs ys else x.less y

end

def atMost (a b : Value) : Except Problem Bool := do
  let before ← a.less b
  return before || a.same b

def isIn (a container : Value) : Except Problem Bool :=
  match container with
  | .text _ t =>
    match a with
    | .text _ s => .ok (Text.contains s t)
    | _ => .error .wrongType
  | .map entries => do
    match ← a.key? with
    | some key => return Table.contains entries key
    | Option.none => return false
  | _ => do
    let items ← container.items
    match a with
    | .absent absence => if items.isEmpty then return false else absence.lenient (items.any a.same)
    | _ => return items.any a.same

def related (relation : Relation) (a b : Value) : Except Problem Bool :=
  match relation with
  | .equal => a.equal b
  | .unequal => (a.equal b).map (!·)
  | .less => a.less b
  | .atMost => a.atMost b
  | .greater => b.less a
  | .atLeast => b.atMost a
  | .isIn => a.isIn b
  | .isNotIn => (a.isIn b).map (!·)

/-- The texts of values put together.  From the first safe one on everything is safe, and what is
not is escaped. -/
def joined (values : List Value) : Except Problem Value := do
  if values.any isSafe then
    let parts ← values.mapM fun value => do return escaped value.isSafe (← value.shown)
    return .text true parts.flatten
  else
    let parts ← values.mapM shown
    return plain parts.flatten

end Value

end Stencil.Host
