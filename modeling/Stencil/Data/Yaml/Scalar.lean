import Stencil.Data.Value
import Stencil.Data.Yaml.Cursor
import Stencil.Decimal.Read
import Stencil.Text.Search

/-!
# The values of plain scalars

The text of a plain scalar stands for nothing, a truth value, an integer or a decimal, if it has
the form of one, and for itself otherwise.  Integers are decimal, binary, octal after a leading
zero, hexadecimal, or in base sixty with colons; underscores between digits mean nothing.
-/

namespace Stencil.Data.Yaml

def nullWords : List String :=
  ["", "~", "null", "Null", "NULL"]

def trueWords : List String :=
  ["yes", "Yes", "YES", "true", "True", "TRUE", "on", "On", "ON"]

def falseWords : List String :=
  ["no", "No", "NO", "false", "False", "FALSE", "off", "Off", "OFF"]

def infinityWords : List String :=
  [".inf", ".Inf", ".INF"]

def notNumberWords : List String :=
  [".nan", ".NaN", ".NAN"]

def isSpacedDigit (c : Char) : Bool :=
  c.isDigit || c == '_'

def dropSpacing (text : List Char) : List Char :=
  text.filter (· != '_')

def isHexDigit (c : Char) : Bool :=
  c.isDigit || ('a' ≤ c && c ≤ 'f') || ('A' ≤ c && c ≤ 'F')

def digitValue (c : Char) : Nat :=
  if c.isDigit then c.toNat - 48
  else if 'a' ≤ c && c ≤ 'f' then c.toNat - 87
  else c.toNat - 55

def numberInBase (base : Nat) (digits : List Char) : Nat :=
  digits.foldl (fun n c => base * n + digitValue c) 0

def readInBase (base : Nat) (digits : List Char) : Except Problem Int :=
  if digits.isEmpty then .error .outOfBounds else .ok (numberInBase base digits)

def readDigits (digits : List Char) : Except Problem Int :=
  if Decimal.digitLimit < digits.length then .error .outOfBounds
  else .ok (numberInBase 10 digits)

/-- One or two digits below sixty. -/
def isSixtieth (part : List Char) : Bool :=
  match part with
  | [d] => d.isDigit
  | [c, d] => '0' ≤ c && c ≤ '5' && d.isDigit
  | _ => false

/-- Digits that begin with none of zero. -/
def isLeading (part : List Char) : Bool :=
  match part with
  | c :: rest => '1' ≤ c && c ≤ '9' && rest.all isSpacedDigit
  | [] => false

/-- Digits before other digits or underscores. -/
def isSpacedNumber (part : List Char) : Bool :=
  match part with
  | c :: rest => c.isDigit && rest.all isSpacedDigit
  | [] => false

/-- An integer without its sign, if the text has the form of one. -/
def unsignedInt? (text : List Char) : Option (Except Problem Int) :=
  match text with
  | '0' :: 'b' :: digits =>
    if !digits.isEmpty && digits.all (fun c => c == '0' || c == '1' || c == '_') then
      some (readInBase 2 (dropSpacing digits))
    else none
  | '0' :: 'x' :: digits =>
    if !digits.isEmpty && digits.all (fun c => isHexDigit c || c == '_') then
      some (readInBase 16 (dropSpacing digits))
    else none
  | '0' :: digits =>
    if digits.all fun c => ('0' ≤ c && c ≤ '7') || c == '_' then
      some (.ok (numberInBase 8 (dropSpacing digits)))
    else none
  | _ =>
    match Text.splitAll [':'] text with
    | [digits] => if isLeading digits then some (readDigits (dropSpacing digits)) else none
    | first :: parts =>
      if isLeading first && parts.all isSixtieth then
        some (do
          let first ← readDigits (dropSpacing first)
          .ok (parts.foldl (fun n part => 60 * n + numberInBase 10 part) first))
      else none
    | [] => none

/-- An exponent with its sign, or nothing. -/
def isPower (text : List Char) : Bool :=
  match text with
  | [] => true
  | mark :: sign :: digits =>
    (mark == 'e' || mark == 'E') && (sign == '+' || sign == '-') && !digits.isEmpty &&
      digits.all Char.isDigit
  | _ => false

/-- The number of parts in base sixty, from the last one on. -/
def sixtieths (scale total : Float) : List Float → Float
  | [] => total
  | part :: rest => sixtieths (scale * 60) (total + part * scale) rest

def pointParts? (text : List Char) : Option (List Char × List Char) :=
  Text.splitFirst? ['.'] text

/-- A decimal without its sign, if the text has the form of one. -/
def unsignedFloat? (signed : Bool) (text : List Char) : Option Float := do
  let (whole, rest) ← pointParts? text
  let fraction := rest.takeWhile isSpacedDigit
  let power := rest.dropWhile isSpacedDigit
  if infinityWords.contains (String.ofList text) then some (1 / 0)
  else if whole.isEmpty then
    if !signed && isSpacedNumber fraction && isPower power then
      Decimal.readFloat? (dropSpacing text)
    else none
  else
    match Text.splitAll [':'] whole with
    | [digits] =>
      if isSpacedNumber digits && isPower power then Decimal.readFloat? (dropSpacing text) else none
    | first :: parts =>
      if isSpacedNumber first && parts.all isSixtieth && power.isEmpty then do
        let numbers ← (Text.splitAll [':'] (dropSpacing text)).mapM Decimal.readFloat?
        some (sixtieths 1 0 numbers.reverse)
      else none
    | [] => none

def plainValue (text : List Char) : Except Problem Value :=
  let word := String.ofList text
  if nullWords.contains word then .ok .null
  else if trueWords.contains word then .ok (.bool true)
  else if falseWords.contains word then .ok (.bool false)
  else if notNumberWords.contains word then .ok (.float (0 / 0))
  else
    let (negative, body) := Decimal.splitSign text
    let signed := body.length != text.length
    match unsignedInt? body, unsignedFloat? signed body with
    | some result, _ => result.map fun n => .int (if negative then -n else n)
    | none, some x => .ok (.float (if negative then -x else x))
    | none, none => .ok (.text word)

end Stencil.Data.Yaml
