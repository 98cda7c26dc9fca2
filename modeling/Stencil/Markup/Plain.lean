import Stencil.Data.Json
import Stencil.Decimal.Read
import Stencil.Text.Blank
import Stencil.Text.Search

/-!
# Markup as plain text

Comments and tags are removed, runs of blanks become single spaces, and character references are
replaced by the characters that they name.
-/

namespace Stencil.Markup

open Stencil.Text

/-- Remove every stretch from an opening mark to the first closing mark behind it.  A stretch that
is not closed ends the search. -/
def removeBetween (opening closing text : List Char) : List Char :=
  match text with
  | [] => []
  | c :: rest =>
    if opening.isPrefixOf (c :: rest) then
      match indexOf? closing (c :: rest) with
      | some position => removeBetween opening closing (rest.drop (position + closing.length - 1))
      | none => c :: rest
    else c :: removeBetween opening closing rest
termination_by text.length

def namedCharacters : List (List Char × Char) :=
  [("amp".toList, '&'), ("lt".toList, '<'), ("gt".toList, '>'), ("quot".toList, '"'),
   ("apos".toList, '\''), ("nbsp".toList, Char.ofNat 0xA0), ("copy".toList, Char.ofNat 0xA9),
   ("reg".toList, Char.ofNat 0xAE)]

/-- The number that a numeric reference writes, without its mark. -/
def referenceNumber? (body : List Char) : Option Nat :=
  match body with
  | 'x' :: digits | 'X' :: digits =>
    if digits.isEmpty then none
    else digits.foldlM (fun n c => (Data.Json.hexValue? c).map (n * 16 + ·)) 0
  | digits =>
    if digits.isEmpty || !digits.all Char.isDigit then none else some (Decimal.natOfDigits digits)

def referenced? (body : List Char) : Option Char :=
  match body with
  | '#' :: number =>
    (referenceNumber? number).map fun n =>
      if n == 0 || 0x10FFFF < n || (0xD800 ≤ n && n ≤ 0xDFFF) then Char.ofNat 0xFFFD
      else Char.ofNat n
  | name => namedCharacters.lookup name

/-- Replace every reference that ends in a semicolon. -/
def unescape (text : List Char) : List Char :=
  match text with
  | [] => []
  | '&' :: rest =>
    let body := rest.takeWhile fun c => c.isAlphanum || c == '#'
    match referenced? body, rest.drop body.length with
    | some c, ';' :: _ => c :: unescape (rest.drop (body.length + 1))
    | _, _ => '&' :: unescape rest
  | c :: rest => c :: unescape rest
termination_by text.length
decreasing_by all_goals simp only [List.length_cons, List.length_drop]; omega

def plainText (markup : List Char) : List Char :=
  let bare := removeBetween ['<'] ['>'] (removeBetween "<!--".toList "-->".toList markup)
  unescape (List.intercalate [' '] (fields bare))

end Stencil.Markup
