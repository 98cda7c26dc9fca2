import Stencil.Data.Json
import Stencil.Text.Capital
import Stencil.Text.Search

/-!
# Values given as text

A variable gives the value of a setting as text.  Some words stand for the truth values; a number
stands for itself, and is a decimal if it has a point; a text that begins with a bracket or brace
may be written in the data notation.  Everything else is a text.
-/

namespace Stencil.Config

open Stencil.Data Stencil.Text

/-- A number has more digits than allowed. -/
structure NumberTooLong where
  deriving DecidableEq

def trueWords : List String :=
  ["true", "yes", "on"]

def falseWords : List String :=
  ["false", "no", "off"]

def readNumber? (text : List Char) : Option Value :=
  -- Without a point neither an exponent nor a word for infinity makes a number.
  if text.contains '.' then (Decimal.readFloat? text).map .float
  else (Decimal.readInt? text).map .int

def readValue (text : List Char) : Except NumberTooLong Value :=
  let word := String.ofList (lowerText text)
  if trueWords.contains word then .ok (.bool true)
  else if falseWords.contains word then .ok (.bool false)
  else
    match readNumber? text with
    | some number => .ok number
    | none =>
      let plain : Value := .text (String.ofList text)
      if text.head?.any fun c => c == '{' || c == '[' then
        match Json.read text with
        | .ok value => .ok value
        | .error .malformed => .ok plain
        | .error .numberTooLong => .error ⟨⟩
      else .ok plain

def settingPath (name : List Char) : List (List Char) :=
  splitAll ['_', '_'] (lowerText name)

end Stencil.Config
