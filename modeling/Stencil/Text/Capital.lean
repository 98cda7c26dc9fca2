import Stencil.Text.Case
import Stencil.Text.Casing

/-!
# Capital and small letters of a text

A capital sigma becomes a final one at the end of a word.  The dotted capital I keeps its dot as a
mark of its own.
-/

namespace Stencil.Text

/-- The small form of a character between two texts, the first one in reverse. -/
def lowerBetween (before : List Char) (c : Char) (after : List Char) : List Char :=
  if c.toNat == 0x130 then ['i', Char.ofNat 0x307]
  else if c.toNat == 0x3A3 then
    if meetsCased before && !meetsCased after then [Char.ofNat 0x3C2] else [Char.ofNat 0x3C3]
  else [lowerChar c]

def lowerFrom (before : List Char) : List Char → List Char
  | [] => []
  | c :: rest => lowerBetween before c rest ++ lowerFrom (c :: before) rest

def lowerText (text : List Char) : List Char :=
  lowerFrom [] text

def upperText (text : List Char) : List Char :=
  text.flatMap upperChar

/-- A capital in front, small letters behind it. -/
def capitalize : List Char → List Char
  | [] => []
  | c :: rest => titleChar c ++ lowerFrom [c] rest

end Stencil.Text
