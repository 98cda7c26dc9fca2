import Stencil.Text.Blank

/-!
# Spacing

Collapsing blanks, and dropping those that touch given characters.
-/

namespace Stencil.Text

/-- Every run of blanks becomes one space; `inRun` says that a run is under way. -/
def collapseFrom (inRun : Bool) : List Char → List Char
  | [] => []
  | c :: rest =>
    if isBlank c then
      if inRun then collapseFrom true rest else ' ' :: collapseFrom true rest
    else c :: collapseFrom false rest

def collapse (text : List Char) : List Char :=
  collapseFrom false text

/-- Drop the blanks that stand directly after a character of the class; `after` says that nothing
but dropped blanks lies between such a character and here. -/
def dropAfterFrom (inClass : Char → Bool) (after : Bool) : List Char → List Char
  | [] => []
  | c :: rest =>
    if after && isBlank c then dropAfterFrom inClass true rest
    else c :: dropAfterFrom inClass (inClass c) rest

def dropBlanksAfter (inClass : Char → Bool) (text : List Char) : List Char :=
  dropAfterFrom inClass false text

/-- The next character that is not blank is of the class. -/
def leadsTo (inClass : Char → Bool) (text : List Char) : Bool :=
  match skipBlanks text with
  | [] => false
  | c :: _ => inClass c

/-- Drop the blanks that stand directly before a character of the class. -/
def dropBlanksBefore (inClass : Char → Bool) : List Char → List Char
  | [] => []
  | c :: rest =>
    if isBlank c && leadsTo inClass rest then dropBlanksBefore inClass rest
    else c :: dropBlanksBefore inClass rest

end Stencil.Text
