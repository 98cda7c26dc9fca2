import Stencil.Markup.Element
import Stencil.Text.Spacing

/-!
# Minifying markup

Ordinary comments disappear, blanks that touch a tag disappear, and every other run of blanks
becomes one space.  Elements in which blanks matter are kept as they are.
-/

namespace Stencil.Markup

open Stencil.Text

def tighten (stretch : List Char) : List Char :=
  dropBlanksBefore (· == '<') (dropBlanksAfter (· == '>')
    (collapse (remove comment? stretch)))

/-- The pieces of a document made small.  `afterElement` says that an element has just ended. -/
def tightenPieces (afterElement : Bool) : List (Piece Unit) → List Char
  | [] => []
  | .hit element _ :: rest => element ++ tightenPieces true rest
  | .plain stretch :: rest =>
    let begun := if afterElement then skipBlanks stretch else stretch
    let small := tighten begun
    -- The blanks at the two ends of the document are left to `minify`.
    (if rest.isEmpty then small else trimEnd small) ++ tightenPieces false rest

def minify (document : List Char) : List Char :=
  trim (tightenPieces false (cut verbatimElement? document))

end Stencil.Markup
