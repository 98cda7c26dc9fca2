import Stencil.Catalogue
import Stencil.Markup.Escape

/-!
# Functions of a text

A function that can be registered to change texts takes a text and any further arguments.  It may
refuse, and it may be given arguments that it does not take.
-/

namespace Stencil

open Stencil.Data

/-- What is done with a text and further arguments. -/
abbrev TextFunction := List Char → List Value → Except CallFailure (List Char)

namespace TextFunction

/-- A function that takes nothing but the text. -/
def ofTransform (transform : List Char → List Char) : TextFunction :=
  fun code arguments => if arguments.isEmpty then .ok (transform code) else .error .wrongArguments

/-- What cannot be called with a text at all. -/
def uncallable : TextFunction :=
  fun _ _ => .error .wrongArguments

/-- Escape markup; a second argument tells whether quotes are escaped too. -/
def escapeMarkup : TextFunction := fun code arguments =>
  match arguments with
  | [] => .ok (Markup.escape Markup.named code)
  | [quotes] =>
    .ok (Markup.escape (if quotes.truthy then Markup.named else Markup.bareQuotes) code)
  | _ => .error .wrongArguments

end TextFunction

end Stencil
