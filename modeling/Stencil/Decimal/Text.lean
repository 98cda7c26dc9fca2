import Stencil.Decimal.Shortest

/-!
# The text of a floating-point number

A number is written with the fewest digits that read back.  It is written positionally, with a
point in every case, when its leading digit stands between the fourth place after the point and
the sixteenth before it, and otherwise with an exponent of at least two digits.
-/

namespace Stencil.Decimal

inductive Parts where
  | nan
  | infinite (negative : Bool)
  | zero (negative : Bool)
  | finite (negative : Bool) (magnitude : Binary)

def parts (x : Float) : Parts :=
  let bits : Nat := x.toBits.toNat
  let negative := bits / Nat.pow 2 63 == 1
  let field : Nat := bits / Nat.pow 2 52 % 2048
  let fraction : Nat := bits % Nat.pow 2 52
  if field == 2047 then
    if fraction == 0 then .infinite negative else .nan
  else if field == 0 then
    if fraction == 0 then .zero negative else .finite negative ⟨fraction, -1074, false⟩
  else
    .finite negative
      ⟨Nat.pow 2 52 + fraction, (field : Int) - 1075, fraction == 0 && 1 < field⟩

/-- How digits become text: the range of leading places that are written positionally and the
least width of an exponent. -/
structure Style where
  lowest : Int
  highest : Int
  exponentWidth : Nat

/-- Positional from `0.0001` to below `10 ^ 16`. -/
def plainStyle : Style := ⟨-4, 15, 2⟩

def padLeft (width : Nat) (text : List Char) : List Char :=
  List.replicate (width - text.length) '0' ++ text

def digitsOf (n : Nat) : List Char :=
  (Nat.toDigits 10 n)

def Scaled.text (style : Style) (s : Scaled) : List Char :=
  let digits := digitsOf s.digits
  let top : Int := s.exponent + digits.length - 1
  if style.lowest ≤ top && top ≤ style.highest then
    if 0 ≤ s.exponent then
      digits ++ List.replicate s.exponent.toNat '0' ++ ['.', '0']
    else if 0 ≤ top then
      digits.take (top + 1).toNat ++ '.' :: digits.drop (top + 1).toNat
    else
      '0' :: '.' :: List.replicate (-top - 1).toNat '0' ++ digits
  else
    let fraction := if digits.length = 1 then [] else '.' :: digits.drop 1
    let sign := if top < 0 then '-' else '+'
    digits.take 1 ++ fraction ++ 'e' :: sign ::
      padLeft style.exponentWidth (digitsOf top.natAbs)

def signed (negative : Bool) (text : List Char) : List Char :=
  if negative then '-' :: text else text

def floatText (x : Float) : List Char :=
  match parts x with
  | .nan => ['n', 'a', 'n']
  | .infinite negative => signed negative ['i', 'n', 'f']
  | .zero negative => signed negative ['0', '.', '0']
  | .finite negative magnitude => signed negative (magnitude.shortest.text plainStyle)

end Stencil.Decimal
