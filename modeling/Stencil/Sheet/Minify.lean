import Stencil.Sheet.Segment
import Stencil.Text.Fold
import Stencil.Text.Spacing

/-!
# Minifying a style sheet

Comments and the blanks around punctuation disappear, and so do semicolons before a closing brace
or another semicolon.  Quoted strings are kept as they are.
-/

namespace Stencil.Sheet

open Stencil.Text

def isPunctuation (c : Char) : Bool :=
  c == '{' || c == '}' || c == ';' || c == ':' || c == ',' || c == '>'

def importantWord : List Char :=
  "important".toList

/-- An exclamation mark, blanks and the word for importance. -/
def spacedImportant? : List Char → Option (Hit Unit)
  | '!' :: rest =>
    let blanks := blankWidth rest
    if blanks == 0 then none
    else (afterWord? importantWord (rest.drop blanks)).map
      fun _ => ⟨1 + blanks + importantWord.length, ()⟩
  | _ => none

/-- Drop every semicolon directly before a semicolon or a closing brace. -/
def dropIdleSemicolons : List Char → List Char
  | [] => []
  | c :: rest =>
    if c == ';' && (rest.head? == some ';' || rest.head? == some '}') then
      dropIdleSemicolons rest
    else c :: dropIdleSemicolons rest

def tighten (stretch : List Char) : List Char :=
  dropIdleSemicolons (substitute spacedImportant? (fun _ _ => '!' :: importantWord)
    (dropBlanksBefore isPunctuation (dropBlanksAfter isPunctuation (collapse stretch))))

/-- Comments become a space, so that the tokens on their two sides stay apart. -/
def blankComments (sheet : List Char) : List Char :=
  substitute span? (fun text span => if span = .comment then [' '] else text) sheet

def minify (sheet : List Char) : List Char :=
  -- The sheet is cut anew, since a stretch may reach over the place of a comment.
  trim ((cut span? (blankComments sheet)).flatMap fun
    | .plain stretch => tighten stretch
    | .hit text _ => text)

end Stencil.Sheet
