import Stencil.Data.Value
import Stencil.Decimal.Read

/-!
# Reading JSON

The data notation with two liberties: `NaN`, `Infinity` and `-Infinity` are numbers, and of two
equal keys the last one counts.  Control characters may not stand in a text.  A number with a
fraction or an exponent is a double, every other one an integer of at most the allowed number of
digits.
-/

namespace Stencil.Data.Json

inductive Problem where
  | malformed
  | numberTooLong
  deriving DecidableEq

def isSpace (c : Char) : Bool :=
  c == ' ' || c == '\t' || c == '\n' || c == '\r'

def skipSpace (text : List Char) : List Char :=
  text.dropWhile isSpace

def hexValue? (c : Char) : Option Nat :=
  if c.isDigit then some (c.toNat - 48)
  else if 'a' ≤ c && c ≤ 'f' then some (c.toNat - 87)
  else if 'A' ≤ c && c ≤ 'F' then some (c.toNat - 55)
  else none

def hexQuad? (a b c d : Char) : Option Nat := do
  let a ← hexValue? a
  let b ← hexValue? b
  let c ← hexValue? c
  let d ← hexValue? d
  some (((a * 16 + b) * 16 + c) * 16 + d)

def isHighSurrogate (n : Nat) : Bool :=
  0xD800 ≤ n && n < 0xDC00

def isLowSurrogate (n : Nat) : Bool :=
  0xDC00 ≤ n && n < 0xE000

/-- A code unit that stands alone; half of a pair becomes the replacement character. -/
def unitChar (n : Nat) : Char :=
  if isHighSurrogate n || isLowSurrogate n then '\uFFFD' else Char.ofNat n

def escapedChar? (c : Char) : Option Char :=
  match c with
  | '"' => some '"'
  | '\\' => some '\\'
  | '/' => some '/'
  | 'b' => some '\x08'
  | 'f' => some '\x0c'
  | 'n' => some '\n'
  | 'r' => some '\r'
  | 't' => some '\t'
  | _ => none

/-- The rest of a text after its opening quote: the text and what follows the closing quote. -/
def readText : List Char → Option (List Char × List Char)
  | [] => none
  | '"' :: rest => some ([], rest)
  | '\\' :: 'u' :: a :: b :: c :: d :: '\\' :: 'u' :: e :: f :: g :: h :: rest => do
    let high ← hexQuad? a b c d
    match isHighSurrogate high, hexQuad? e f g h with
    | true, some low =>
      if isLowSurrogate low then
        let (text, rest) ← readText rest
        some (Char.ofNat (0x10000 + (high - 0xD800) * 0x400 + (low - 0xDC00)) :: text, rest)
      else
        let (text, rest) ← readText ('\\' :: 'u' :: e :: f :: g :: h :: rest)
        some (unitChar high :: text, rest)
    | _, _ =>
      let (text, rest) ← readText ('\\' :: 'u' :: e :: f :: g :: h :: rest)
      some (unitChar high :: text, rest)
  | '\\' :: 'u' :: a :: b :: c :: d :: rest => do
    let unit ← hexQuad? a b c d
    let (text, rest) ← readText rest
    some (unitChar unit :: text, rest)
  | '\\' :: c :: rest => do
    let found ← escapedChar? c
    let (text, rest) ← readText rest
    some (found :: text, rest)
  | c :: rest =>
    if c.toNat < 32 then none
    else do
      let (text, rest) ← readText rest
      some (c :: text, rest)

def readFraction (text : List Char) : List Char × List Char :=
  match text with
  | '.' :: d :: rest =>
    if d.isDigit then (d :: rest.takeWhile Char.isDigit, rest.dropWhile Char.isDigit)
    else ([], text)
  | _ => ([], text)

def readPower (text : List Char) : Option Int × List Char :=
  match text with
  | mark :: rest =>
    if mark == 'e' || mark == 'E' then
      let (negative, body) := Decimal.splitSign rest
      let digits := body.takeWhile Char.isDigit
      if digits.isEmpty then (none, text)
      else
        let n : Int := Decimal.natOfDigits digits
        (some (if negative then -n else n), body.dropWhile Char.isDigit)
    else (none, text)
  | [] => (none, text)

def readNumber (negative : Bool) (text : List Char) : Except Problem (Value × List Char) :=
  let leading := text.takeWhile Char.isDigit
  if leading.isEmpty then .error .malformed
  else
    -- A zero in front is the whole number; what follows it does not belong to it.
    let whole := if leading.head? == some '0' then ['0'] else leading
    let rest := text.drop whole.length
    let (fraction, rest) := readFraction rest
    let (power, rest) := readPower rest
    if fraction.isEmpty && power.isNone then
      if Decimal.digitLimit < whole.length then .error .numberTooLong
      else
        let n : Int := Decimal.natOfDigits whole
        .ok (.int (if negative then -n else n), rest)
    else
      let magnitude :=
        Decimal.nearestDecimal (Decimal.natOfDigits (whole ++ fraction))
          (power.getD 0 - fraction.length)
      .ok (.float (if negative then -magnitude else magnitude), rest)

def words : List (List Char × Value) :=
  [("null".toList, .null), ("true".toList, .bool true), ("false".toList, .bool false),
   ("NaN".toList, .float (0 / 0)), ("Infinity".toList, .float (1 / 0)),
   ("-Infinity".toList, .float (-1 / 0))]

def readWord? (text : List Char) : Option (Value × List Char) :=
  words.findSome? fun (word, value) =>
    if word.isPrefixOf text then some (value, text.drop word.length) else none

def readScalar (text : List Char) : Except Problem (Value × List Char) :=
  match readWord? text with
  | some found => .ok found
  | none =>
    match text with
    | '"' :: rest =>
      match readText rest with
      | some (s, rest) => .ok (.text (String.ofList s), rest)
      | none => .error .malformed
    | '-' :: rest => readNumber true rest
    | _ => readNumber false text

mutual

/-- One value; `fuel` bounds the number of steps. -/
def readValue (fuel : Nat) (text : List Char) : Except Problem (Value × List Char) :=
  match fuel with
  | 0 => .error .malformed
  | fuel + 1 =>
    match text with
    | '[' :: rest =>
      match skipSpace rest with
      | ']' :: rest => .ok (.list [], rest)
      | rest => do
        let (items, rest) ← readItems fuel rest
        .ok (.list items, rest)
    | '{' :: rest =>
      match skipSpace rest with
      | '}' :: rest => .ok (.map [], rest)
      | rest => do
        let (entries, rest) ← readEntries fuel [] rest
        .ok (.map entries, rest)
    | _ => readScalar text

def readItems (fuel : Nat) (text : List Char) : Except Problem (List Value × List Char) :=
  match fuel with
  | 0 => .error .malformed
  | fuel + 1 => do
    let (item, rest) ← readValue fuel text
    match skipSpace rest with
    | ']' :: rest => .ok ([item], rest)
    | ',' :: rest => do
      let (items, rest) ← readItems fuel (skipSpace rest)
      .ok (item :: items, rest)
    | _ => .error .malformed

/-- The entries of a mapping up to its closing brace, added to those already read. -/
def readEntries (fuel : Nat) (read : List (Key × Value)) (text : List Char) :
    Except Problem (List (Key × Value) × List Char) :=
  match fuel with
  | 0 => .error .malformed
  | fuel + 1 =>
    match text with
    | '"' :: rest =>
      match readText rest with
      | none => .error .malformed
      | some (key, rest) =>
        match skipSpace rest with
        | ':' :: rest => do
          let (value, rest) ← readValue fuel (skipSpace rest)
          let entries := Table.put read (Key.text (String.ofList key)) value
          match skipSpace rest with
          | '}' :: rest => .ok (entries, rest)
          | ',' :: rest => readEntries fuel entries (skipSpace rest)
          | _ => .error .malformed
        | _ => .error .malformed
    | _ => .error .malformed

end

def read (text : List Char) : Except Problem Value := do
  let (value, rest) ← readValue (2 * text.length + 2) (skipSpace text)
  if (skipSpace rest).isEmpty then .ok value else .error .malformed

end Stencil.Data.Json
