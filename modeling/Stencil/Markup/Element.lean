import Stencil.Text.Cut
import Stencil.Text.Fold
import Stencil.Text.Blank
import Stencil.Text.Numeric

/-!
# Elements and comments of markup

Preformatted text, text areas, scripts and styles hold blanks that matter, or no markup at all.
Such an element begins with its opening tag and ends with the first closing tag that repeats the
name; without one it is no element.  A comment ends with the first end mark after its beginning.
Conditional comments are not ordinary ones.
-/

namespace Stencil.Markup

open Stencil.Text

def verbatimNames : List (List Char) :=
  ["pre".toList, "textarea".toList, "script".toList, "style".toList]

def wordEnds : List Char → Bool
  | [] => true
  | c :: _ => !isWord c

/-- The width of the rest of a tag, up to and with its closing angle bracket. -/
def tagRestWidth? : List Char → Option Nat
  | [] => none
  | c :: rest => if c == '>' then some 1 else (tagRestWidth? rest).map (· + 1)

/-- The width of a closing tag of the given name that begins here. -/
def closingTagWidth? (name : List Char) (text : List Char) : Option Nat := do
  let rest ← after? ['<', '/'] text
  let rest ← afterSameWord? name rest
  let blanks := blankWidth rest
  match rest.drop blanks with
  | '>' :: _ => some (2 + name.length + blanks + 1)
  | _ => none

def contentWidth? (name : List Char) : List Char → Option Nat
  | [] => none
  | c :: rest =>
    match closingTagWidth? name (c :: rest) with
    | some width => some width
    | none => (contentWidth? name rest).map (· + 1)

/-- The width of an element of the given name whose opening bracket stands just before. -/
def elementRestWidth? (name text : List Char) : Option Nat := do
  let rest ← afterWord? name text
  if wordEnds rest then
    let tag ← tagRestWidth? rest
    -- The closing tag is compared with the name as it is spelled here.
    let content ← contentWidth? (text.take name.length) (rest.drop tag)
    some (name.length + tag + content)
  else none

/-- An element that is kept as it is and begins here. -/
def verbatimElement? : List Char → Option (Hit Unit)
  | '<' :: rest =>
    (verbatimNames.findSome? fun name => elementRestWidth? name rest).map
      fun width => ⟨width + 1, ()⟩
  | _ => none

def comment? (text : List Char) : Option (Hit Unit) := do
  let body ← after? "<!--".toList text
  -- Conditional comments are kept, whichever way they begin.
  if ['['].isPrefixOf body || ['<', '!'].isPrefixOf body then none
  else
    let width ← indexOf? "-->".toList body
    some ⟨4 + width + 3, ()⟩

end Stencil.Markup
