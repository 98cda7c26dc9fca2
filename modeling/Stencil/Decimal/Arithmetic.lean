import Stencil.Decimal.Nearest
import Stencil.Decimal.Text

/-!
# Exact arithmetic on floating-point numbers

A finite double is a ratio of integers.  Operations that an exact ratio decides are done on ratios
and rounded once.
-/

namespace Stencil.Decimal

structure Ratio where
  numerator : Int
  denominator : Nat

namespace Ratio

def ofInt (n : Int) : Ratio :=
  ⟨n, 1⟩

def scaled (n : Int) (exponent : Int) : Ratio :=
  if 0 ≤ exponent then ⟨n * (Nat.pow 2 exponent.toNat : Nat), 1⟩ else ⟨n, Nat.pow 2 (-exponent).toNat⟩

def ofFloat? (x : Float) : Option Ratio :=
  match parts x with
  | .zero _ => some ⟨0, 1⟩
  | .finite negative m =>
    some (scaled (if negative then -(m.mantissa : Int) else m.mantissa) m.exponent)
  | _ => none

def less (a b : Ratio) : Bool :=
  a.numerator * b.denominator < b.numerator * a.denominator

def floor (a : Ratio) : Int :=
  a.numerator / a.denominator

def truncate (a : Ratio) : Int :=
  a.numerator.tdiv a.denominator

/-- The double nearest to the ratio, of the given sign if it is zero. -/
def toFloat (a : Ratio) (negativeZero : Bool) : Float :=
  if a.numerator == 0 then if negativeZero then -0.0 else 0.0
  else signedNearest (a.numerator < 0) a.numerator.natAbs a.denominator

end Ratio

def floatOfInt (n : Int) : Float :=
  (Ratio.ofInt n).toFloat false

def isNegative (x : Float) : Bool :=
  match parts x with
  | .infinite negative | .zero negative | .finite negative _ => negative
  | .nan => false

/-- The remainder of the division rounded toward zero; it has the sign of the dividend. -/
def remainder (x y : Float) : Float :=
  match Ratio.ofFloat? x, Ratio.ofFloat? y with
  | some a, some b =>
    let left := a.numerator * b.denominator
    let right := b.numerator * a.denominator
    Ratio.toFloat ⟨left.tmod right, a.denominator * b.denominator⟩ (isNegative x)
  | some _, none => if y.isNaN then y else x
  | none, _ => 0.0 / 0.0

/-- The quotient rounded down and the remainder that goes with it, which has the sign of the
divisor.  The divisor is not zero. -/
def floorDivision (x y : Float) : Float × Float :=
  let r := remainder x y
  let quotient := (x - r) / y
  let (quotient, r) :=
    if r == 0 then (quotient, if isNegative y then -0.0 else 0.0)
    else if (y < 0) != (r < 0) then (quotient - 1, r + y)
    else (quotient, r)
  let quotient :=
    if quotient == 0 then if isNegative (x / y) then -0.0 else 0.0
    else
      let down := quotient.floor
      if quotient - down > 0.5 then down + 1 else down
  (quotient, r)

/-- The double rounded to a number of decimal places, a tie to the even digit. -/
def roundPlaces (x : Float) (places : Int) : Float :=
  match Ratio.ofFloat? x with
  | none => x
  | some a =>
    let size := a.numerator.natAbs
    if 0 ≤ places then
      let unit := Nat.pow 10 places.toNat
      Ratio.toFloat
        ⟨(if a.numerator < 0 then -1 else 1) * (roundDiv (size * unit) a.denominator : Nat), unit⟩
        (isNegative x)
    else
      let unit := Nat.pow 10 (-places).toNat
      Ratio.toFloat
        ⟨(if a.numerator < 0 then -1 else 1) *
          (roundDiv size (a.denominator * unit) * unit : Nat), 1⟩
        (isNegative x)

/-- The integer rounded to a multiple of a power of ten, a tie to the even multiple. -/
def roundInt (n : Int) (places : Int) : Int :=
  if 0 ≤ places then n
  else
    let unit := Nat.pow 10 (-places).toNat
    (if n < 0 then -1 else 1) * (roundDiv n.natAbs unit * unit : Nat)

end Stencil.Decimal
