/-!
# Shortest decimals

The decimal with the fewest digits that reads back as a given binary number, and of several such
decimals the nearest.  A binary number stands for the interval of reals that round to it; its ends
belong to it when the mantissa is even.
-/

namespace Stencil.Decimal

/-- The positive number `mantissa * 2 ^ exponent`.  `atPowerOfTwo` says that the next smaller
number lies only half as far away as the next larger one. -/
structure Binary where
  mantissa : Nat
  exponent : Int
  atPowerOfTwo : Bool

structure Scaled where
  digits : Nat
  exponent : Int
  deriving Repr, DecidableEq

/-- The number and the ends of its interval over one common denominator. -/
structure Interval where
  low : Nat
  value : Nat
  high : Nat
  denominator : Nat
  closed : Bool

def Binary.interval (x : Binary) : Interval :=
  let lowStep := if x.atPowerOfTwo then 1 else 2
  let scale := if 0 ≤ x.exponent then Nat.pow 2 x.exponent.toNat else 1
  { low := (4 * x.mantissa - lowStep) * scale
    value := 4 * x.mantissa * scale
    high := (4 * x.mantissa + 2) * scale
    denominator := 4 * (if 0 ≤ x.exponent then 1 else Nat.pow 2 (-x.exponent).toNat)
    closed := x.mantissa % 2 == 0 }

/-- The decimal `digits * 10 ^ exponent` lies in the interval. -/
def Interval.holds (i : Interval) (s : Scaled) : Bool :=
  let left := s.digits * i.denominator * (if 0 ≤ s.exponent then Nat.pow 10 s.exponent.toNat else 1)
  let unit := if 0 ≤ s.exponent then 1 else Nat.pow 10 (-s.exponent).toNat
  if i.closed then i.low * unit ≤ left && left ≤ i.high * unit
  else i.low * unit < left && left < i.high * unit

/-- The position of the leading decimal digit: the greatest `k` with `10 ^ k` at most the value.
The search starts from an estimate by binary logarithms and is corrected upwards. -/
def Interval.leading (i : Interval) : Int :=
  let bits : Int := (i.value.log2 : Int) - (i.denominator.log2 : Int)
  let guess : Int := (bits - 1) * 30103 / 100000 - 1
  let reaches (k : Int) : Bool :=
    if 0 ≤ k then i.denominator * Nat.pow 10 k.toNat ≤ i.value
    else i.denominator ≤ i.value * Nat.pow 10 (-k).toNat
  if reaches (guess + 3) then guess + 3
  else if reaches (guess + 2) then guess + 2
  else if reaches (guess + 1) then guess + 1
  else guess

/-- The better of the two neighbours of the value on the grid of multiples of `10 ^ exponent`,
if one of them lies in the interval.  A tie goes to the even neighbour. -/
def Interval.onGrid? (i : Interval) (exponent : Int) : Option Scaled :=
  let numerator := i.value * (if 0 ≤ exponent then 1 else Nat.pow 10 (-exponent).toNat)
  let unit := i.denominator * (if 0 ≤ exponent then Nat.pow 10 exponent.toNat else 1)
  let below := numerator / unit
  let excess := 2 * (numerator % unit)
  let down : Scaled := ⟨below, exponent⟩
  let up : Scaled := ⟨below + 1, exponent⟩
  let upFirst := unit < excess || (unit == excess && below % 2 == 1)
  let first := if upFirst then up else down
  let second := if upFirst then down else up
  if 0 < first.digits && i.holds first then some first
  else if 0 < second.digits && i.holds second then some second
  else none

/-- Trailing zeros moved into the exponent; `fuel` bounds their number. -/
def Scaled.normalise : Nat → Scaled → Scaled
  | 0, s => s
  | fuel + 1, s =>
    if s.digits % 10 == 0 && 0 < s.digits then
      normalise fuel ⟨s.digits / 10, s.exponent + 1⟩
    else s

/-- Seventeen digits always suffice for a number of fifty-three bits. -/
def Binary.shortest (x : Binary) : Scaled :=
  let i := x.interval
  let top := i.leading
  let grids := (List.range 17).map fun places : Nat => top - Int.ofNat places
  match grids.findSome? i.onGrid? with
  | some s => s.normalise 20
  | none => ⟨0, 0⟩

end Stencil.Decimal
