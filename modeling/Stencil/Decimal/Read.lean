import Stencil.Decimal.Nearest
import Stencil.Text.Blank
import Stencil.Text.Numeric

/-!
# Reading numbers

Whole numbers and decimals as people type them: blanks around, a sign, digits of any script, and
single underscores between digits.  The control characters that separate pieces of information are
no blanks here.
-/

namespace Stencil.Decimal

open Stencil.Text

def isPadding (c : Char) : Bool :=
  isBlank c && !(28 ≤ c.toNat && c.toNat ≤ 31)

def dropPadding (text : List Char) : List Char :=
  ((text.dropWhile isPadding).reverse.dropWhile isPadding).reverse

/-- Digits of any script become ASCII digits; all else is kept. -/
def plainDigits (text : List Char) : List Char :=
  text.map fun c =>
    match decimalValue? c with
    | some value => Char.ofNat (48 + value)
    | none => c

/-- The text without its underscores, if each of them stands between two digits. -/
def dropUnderscores? : List Char → Option (List Char)
  | [] => some []
  | '_' :: _ => none
  | c :: '_' :: d :: rest =>
    if c.isDigit && d.isDigit then
      (dropUnderscores? (d :: rest)).map (c :: ·)
    else none
  | c :: rest => (dropUnderscores? rest).map (c :: ·)

def splitSign : List Char → Bool × List Char
  | '-' :: rest => (true, rest)
  | '+' :: rest => (false, rest)
  | text => (false, text)

def natOfDigits (digits : List Char) : Nat :=
  digits.foldl (fun n c => 10 * n + (c.toNat - 48)) 0

/-- The greatest number of digits that a whole number may have. -/
def digitLimit : Nat := 4300

def readInt? (text : List Char) : Option Int := do
  let (negative, body) := splitSign (plainDigits (dropPadding text))
  let digits ← dropUnderscores? body
  if digits.isEmpty || !digits.all Char.isDigit || digitLimit < digits.length then none
  else
    let n := natOfDigits digits
    some (if negative then -(n : Int) else n)

def readExponent? : List Char → Option Int
  | [] => some 0
  | mark :: rest =>
    if mark == 'e' || mark == 'E' then
      let (negative, digits) := splitSign rest
      if digits.isEmpty || !digits.all Char.isDigit then none
      else some (if negative then -(natOfDigits digits : Int) else natOfDigits digits)
    else none

/-- A decimal without a sign: digits before or after a point, and an exponent. -/
def readUnsigned? (text : List Char) : Option Float := do
  let whole := text.takeWhile Char.isDigit
  let rest := text.dropWhile Char.isDigit
  let (fraction, rest) :=
    match rest with
    | '.' :: rest => (rest.takeWhile Char.isDigit, rest.dropWhile Char.isDigit)
    | rest => ([], rest)
  if whole.isEmpty && fraction.isEmpty then none
  else
    let exponent ← readExponent? rest
    some (nearestDecimal (natOfDigits (whole ++ fraction)) (exponent - fraction.length))

/-- The words for infinity and for what is not a number, in any case. -/
def readWord? (text : List Char) : Option Float :=
  let word := String.ofList (text.map Char.toLower)
  if word == "inf" || word == "infinity" then some (1 / 0)
  else if word == "nan" then some (0 / 0)
  else none

/-- A decimal number or one of the words for infinity and not-a-number. -/
def readFloat? (text : List Char) : Option Float := do
  let (negative, body) := splitSign (plainDigits (dropPadding text))
  let body ← dropUnderscores? body
  let magnitude ← (readUnsigned? body).or (readWord? body)
  some (if negative then -magnitude else magnitude)

end Stencil.Decimal
