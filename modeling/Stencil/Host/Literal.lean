import Stencil.Decimal.Read
import Stencil.Text.Quoted
import Stencil.Text.Letter

/-!
# Literals of host code

Numbers may have single underscores between their digits.  The escapes of a quoted text are read
after every character beyond ASCII has been written as an escape itself, so that a backslash before
such a character stands for itself.
-/

namespace Stencil.Host

open Stencil.Text Stencil.Decimal

def isDigitChar (c : Char) : Bool :=
  (decimalValue? c).isSome

def runWidth (inClass : Char → Bool) : List Char → Nat
  | '_' :: c :: rest => if inClass c then runWidth inClass rest + 2 else 0
  | c :: rest => if inClass c then runWidth inClass rest + 1 else 0
  | [] => 0

def digitsWidth (inClass : Char → Bool) (text : List Char) : Nat :=
  match text with
  | c :: _ => if inClass c then runWidth inClass text else 0
  | [] => 0

def fractionWidth : List Char → Nat
  | '.' :: rest =>
    match digitsWidth isDigitChar rest with
    | 0 => 0
    | width + 1 => width + 2
  | _ => 0

def exponentWidth : List Char → Nat
  | e :: rest =>
    if e == 'e' || e == 'E' then
      let signWidth := if rest.head? == some '+' || rest.head? == some '-' then 1 else 0
      match digitsWidth isDigitChar (rest.drop signWidth) with
      | 0 => 0
      | width + 1 => width + signWidth + 2
    else 0
  | [] => 0

/-- The length of a number with a fraction, an exponent or both; zero if there is none. -/
def decimalWidth (text : List Char) : Nat :=
  match digitsWidth isDigitChar text with
  | 0 => 0
  | width =>
    let fraction := fractionWidth (text.drop width)
    let exponent := exponentWidth (text.drop (width + fraction))
    if fraction == 0 && exponent == 0 then 0 else width + fraction + exponent

def isBinaryDigit (c : Char) : Bool :=
  c == '0' || c == '1'

def isOctalDigit (c : Char) : Bool :=
  '0' ≤ c && c ≤ '7'

def isHexDigit (c : Char) : Bool :=
  c.isDigit || ('a' ≤ c && c ≤ 'f') || ('A' ≤ c && c ≤ 'F')

def digitValue (c : Char) : Nat :=
  if 'a' ≤ c && c ≤ 'f' then c.toNat - 87
  else if 'A' ≤ c && c ≤ 'F' then c.toNat - 55
  else (decimalValue? c).getD 0

def numberInBase (base : Nat) (digits : List Char) : Nat :=
  (digits.filter (· != '_')).foldl (fun n c => n * base + digitValue c) 0

/-- The bases that a letter after a zero can name, with their digits. -/
def baseOf? (letter : Char) : Option (Nat × (Char → Bool)) :=
  match letter with
  | 'b' | 'B' => some (2, isBinaryDigit)
  | 'o' | 'O' => some (8, isOctalDigit)
  | 'x' | 'X' => some (16, isHexDigit)
  | _ => none

/-- The length and the value of an integer that begins the text. -/
def integer? (text : List Char) : Option (Nat × Nat) :=
  match text with
  | '0' :: letter :: rest =>
    let zeros := runWidth (· == '0') text
    match baseOf? letter with
    | some (base, inClass) =>
      match runWidth inClass rest with
      | 0 => some (zeros, 0)
      | width => some (width + 2, numberInBase base (rest.take width))
    | none => some (zeros, 0)
  | '0' :: [] => some (1, 0)
  | c :: _ =>
    if c.isDigit then
      let width := runWidth isDigitChar text
      some (width, numberInBase 10 (text.take width))
    else none
  | [] => none

/-- The length of a quoted text from after its opening quote to behind its closing one. -/
def closingWidth? (quote : Char) : List Char → Option Nat
  | [] => none
  | '\\' :: _ :: rest => (closingWidth? quote rest).map (· + 2)
  | c :: rest => if c == quote then some 1 else (closingWidth? quote rest).map (· + 1)

def asciiForm (c : Char) : List Char :=
  let n := c.toNat
  if n < 128 then [c]
  else if n < 256 then ['\\', 'x'] ++ hexDigits 2 n
  else if n < 65536 then ['\\', 'u'] ++ hexDigits 4 n
  else ['\\', 'U'] ++ hexDigits 8 n

def simpleEscape? (c : Char) : Option (List Char) :=
  match c with
  | '\n' => some []
  | '\\' => some ['\\']
  | '\'' => some ['\'']
  | '"' => some ['"']
  | 'a' => some ['\x07']
  | 'b' => some ['\x08']
  | 'f' => some ['\x0c']
  | 'n' => some ['\n']
  | 'r' => some ['\r']
  | 't' => some ['\t']
  | 'v' => some ['\x0b']
  | _ => none

def escapeWidth? (c : Char) : Option Nat :=
  match c with
  | 'x' => some 2
  | 'u' => some 4
  | 'U' => some 8
  | _ => none

/-- Read the escapes of an ASCII text.  There is no reading if a numbered escape lacks digits or
names no code point; an unknown escape stands for itself. -/
def readEscapes (text : List Char) : Option (List Char) :=
  match text with
  | [] => some []
  | '\\' :: c :: rest =>
    match simpleEscape? c, escapeWidth? c with
    | some meant, _ => (readEscapes rest).map (meant ++ ·)
    | none, some width =>
      let digits := rest.take width
      let code := numberInBase 16 digits
      if digits.length == width && digits.all isHexDigit && code ≤ 0x10FFFF then
        (readEscapes (rest.drop width)).map (Char.ofNat code :: ·)
      else none
    | none, none =>
      let digits := (c :: rest.take 2).takeWhile isOctalDigit
      if digits.isEmpty then
        if c == 'N' then none else (readEscapes rest).map (['\\', c] ++ ·)
      else
        (readEscapes (rest.drop (digits.length - 1))).map
          (Char.ofNat (numberInBase 8 digits) :: ·)
  | c :: rest => (readEscapes rest).map (c :: ·)
termination_by text.length
decreasing_by all_goals simp only [List.length_cons, List.length_drop]; omega

def readQuoted (text : List Char) : Option (List Char) :=
  readEscapes (text.flatMap asciiForm)

/-- A word that can be a name: letters, digits and underscores, no digit in front. -/
def isIdentifier (word : List Char) : Bool :=
  match word with
  | [] => false
  | c :: _ =>
    (c == '_' || isLetter c) && word.all fun d => d == '_' || isLetter d || isDigitChar d

end Stencil.Host
