/-!
# The double nearest to a ratio

A ratio of natural numbers is scaled by a power of two until its quotient has fifty-three bits,
or as many as the smallest numbers have, and the quotient is rounded to the nearest integer, a
tie to the even one.
-/

namespace Stencil.Decimal

/-- The quotient rounded to the nearest integer, a tie to the even one. -/
def roundDiv (numerator denominator : Nat) : Nat :=
  let quotient := numerator / denominator
  let excess := 2 * (numerator % denominator)
  if denominator < excess || (denominator == excess && quotient % 2 == 1) then quotient + 1
  else quotient

/-- The double with the given bits of mantissa and the given power of two as its unit. -/
def assemble (mantissa : Nat) (exponent : Int) : Float :=
  if mantissa < Nat.pow 2 52 then Float.ofBits mantissa.toUInt64
  else if 971 < exponent then Float.ofBits (2047 * Nat.pow 2 52 : Nat).toUInt64
  else Float.ofBits ((exponent + 1075).toNat * Nat.pow 2 52 + (mantissa - Nat.pow 2 52)).toUInt64

/-- The double nearest to `numerator / denominator`, infinite beyond the greatest one. -/
def nearest (numerator denominator : Nat) : Float :=
  if numerator == 0 || denominator == 0 then 0
  else
    let bits : Int := (numerator.log2 : Int) - (denominator.log2 : Int)
    let scaled (exponent : Int) : Nat × Nat :=
      if 0 ≤ exponent then (numerator, denominator * Nat.pow 2 exponent.toNat)
      else (numerator * Nat.pow 2 (-exponent).toNat, denominator)
    let guess := max (bits - 53) (-1074)
    let fits (exponent : Int) : Bool :=
      let (n, d) := scaled exponent
      n < d * Nat.pow 2 53
    let exponent :=
      if fits guess then guess else if fits (guess + 1) then guess + 1 else guess + 2
    let (n, d) := scaled exponent
    let mantissa := roundDiv n d
    if mantissa == Nat.pow 2 53 then assemble (Nat.pow 2 52) (exponent + 1)
    else assemble mantissa exponent

def signedNearest (negative : Bool) (numerator denominator : Nat) : Float :=
  if negative then -(nearest numerator denominator) else nearest numerator denominator

/-- The double nearest to `digits * 10 ^ exponent`.  Numbers whose leading digit lies far outside
the range of doubles are decided without the power. -/
def nearestDecimal (digits : Nat) (exponent : Int) : Float :=
  if digits == 0 then 0
  else
    let top : Int := exponent + (Nat.toDigits 10 digits).length
    if 400 < top then Float.ofBits (2047 * Nat.pow 2 52 : Nat).toUInt64
    else if top < -400 then 0
    else if 0 ≤ exponent then nearest (digits * Nat.pow 10 exponent.toNat) 1
    else nearest digits (Nat.pow 10 (-exponent).toNat)

end Stencil.Decimal
