import Stencil.Text.Cut
import Stencil.Text.Fold
import Stencil.Text.Blank
import Stencil.Text.Numeric

/-!
# Embedded server code

Template text is written outside the application, so whatever a server would execute in it is
removed: processing instructions, tags with percent signs, and script elements in a server
language.  An instruction or a script without an end takes the rest of the text; a percent tag
counts only together with its end.
-/

namespace Stencil.ServerCode

open Stencil.Text

/-- The width of the text up to and with the first end mark, or of all of it. -/
def widthThrough (mark text : List Char) : Nat :=
  match indexOf? mark text with
  | some position => position + mark.length
  | none => text.length

/-- The width of what makes a processing instruction one of server code, after `<?`. -/
def instructionWidth? (text : List Char) : Option Nat :=
  if (afterWord? ['p', 'h', 'p'] text).isSome then some 3
  else if (afterWord? ['p', 'y'] text).isSome then some 2
  else
    match text with
    | [] => none
    -- Instructions of other names, such as an XML declaration, are kept.
    | c :: _ => if c == '=' || c == '#' then some 1 else if isBlank c then some 0 else none

def wordBoundary (before : Bool) : List Char → Bool
  | [] => before
  | c :: _ => before != isWord c

/-- A server language is named here, with or without a quote before it. -/
def namesServerLanguage (text : List Char) : Bool :=
  let bare :=
    match text with
    | '"' :: rest => rest
    | '\'' :: rest => rest
    | _ => text
  (["php".toList, "python".toList].any fun language =>
    match afterWord? language bare with
    | some rest => wordBoundary true rest
    | none => false)

/-- An attribute that sets the language to a server language begins here. -/
def setsServerLanguage (text : List Char) : Bool :=
  match afterWord? "language".toList text with
  | none => false
  | some rest =>
    match skipBlanks rest with
    | '=' :: rest => namesServerLanguage (skipBlanks rest)
    | _ => false

/-- The inside of a tag sets a server language.  `before` says that a word character stands
before it. -/
def hasServerLanguage (before : Bool) : List Char → Bool
  | [] => false
  | c :: rest =>
    (wordBoundary before (c :: rest) && setsServerLanguage (c :: rest)) ||
      hasServerLanguage (isWord c) rest

/-- The width of the text up to and with the closing tag of a script, or of all of it. -/
def scriptContentWidth : List Char → Nat
  | [] => 0
  | c :: rest =>
    let closing := do
      let tail ← after? ['<', '/'] (c :: rest)
      let tail ← afterWord? "script".toList tail
      let blanks := blankWidth tail
      if (tail.drop blanks).head? == some '>' then some (2 + 6 + blanks + 1) else none
    match closing with
    | some width => width
    | none => scriptContentWidth rest + 1

def scriptWidth? (text : List Char) : Option Nat := do
  let rest ← afterWord? "script".toList text
  let inside := rest.takeWhile (· != '>')
  let tail := rest.drop inside.length
  if wordBoundary true rest && !tail.isEmpty && hasServerLanguage true inside then
    some (6 + inside.length + 1 + scriptContentWidth (tail.drop 1))
  else none

def segment? : List Char → Option (Hit Unit)
  | '<' :: '?' :: rest =>
    (instructionWidth? rest).map fun width =>
      ⟨2 + width + widthThrough ['?', '>'] (rest.drop width), ()⟩
  | '<' :: '%' :: rest =>
    (indexOf? ['%', '>'] rest).map fun width => ⟨2 + width + 2, ()⟩
  | '<' :: rest => (scriptWidth? rest).map fun width => ⟨1 + width, ()⟩
  | _ => none

def segments (text : List Char) : List (List Char) :=
  hits segment? text

/-- The text without server code, and the segments removed from it in the order of removal.
Removing can join the text around a segment into a new one, so it goes on until none is left. -/
def strip (text : List Char) : List Char × List (List Char) :=
  if _hfound : segments text = [] then (text, [])
  else
    let (clean, later) := strip (remove segment? text)
    (clean, segments text ++ later)
termination_by text.length
decreasing_by exact length_remove_lt _hfound

def clean (text : List Char) : List Char :=
  (strip text).1

end Stencil.ServerCode
