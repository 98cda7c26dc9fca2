import Stencil.Text.Search

/-!
# Comparing without regard to case

Patterns are words of ASCII letters.  Without regard to case the long `s` stands for `s`, and the
dotted capital and the dotless small letter stand for `i`.  Comparing a text with an earlier
spelling of a word is stricter: only the simple lower case forms count.
-/

namespace Stencil.Text

/-- The ASCII letter that a character stands for in a pattern, or the character itself. -/
def foldCase (c : Char) : Char :=
  if c == '\u017F' then 's'
  else if c == '\u0130' || c == '\u0131' then 'i'
  else c.toLower

/-- The simple lower case form, as far as ASCII letters are concerned. -/
def simpleLower (c : Char) : Char :=
  if c == '\u0130' then 'i' else if c == '\u212A' then 'k' else c.toLower

/-- What follows a word of small ASCII letters, compared without regard to case. -/
def afterWord? (word text : List Char) : Option (List Char) :=
  if word.isPrefixOf ((text.take word.length).map foldCase) then some (text.drop word.length)
  else none

/-- What follows a second spelling of a word, compared by simple lower case forms. -/
def afterSameWord? (word text : List Char) : Option (List Char) :=
  if (word.map simpleLower).isPrefixOf ((text.take word.length).map simpleLower) then
    some (text.drop word.length)
  else none

end Stencil.Text
