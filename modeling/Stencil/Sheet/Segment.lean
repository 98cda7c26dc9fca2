import Stencil.Text.Cut
import Stencil.Text.Search

/-!
# Segments of a style sheet

A style sheet consists of quoted strings, comments and the rest.  A quoted string ends with the
quote that it began with, and a backslash takes the next character with it.  What is not ended is
neither a string nor a comment.
-/

namespace Stencil.Sheet

open Stencil.Text

def quotedRestWidth? (quote : Char) : List Char → Option Nat
  | [] => none
  | '\\' :: rest =>
    match rest with
    | [] => none
    | _ :: rest => (quotedRestWidth? quote rest).map (· + 2)
  | c :: rest => if c == quote then some 1 else (quotedRestWidth? quote rest).map (· + 1)

inductive Span where
  | quoted
  | comment
  deriving DecidableEq

def span? : List Char → Option (Hit Span)
  | '"' :: rest => (quotedRestWidth? '"' rest).map fun width => ⟨width + 1, .quoted⟩
  | '\'' :: rest => (quotedRestWidth? '\'' rest).map fun width => ⟨width + 1, .quoted⟩
  | '/' :: '*' :: rest => (indexOf? ['*', '/'] rest).map fun width => ⟨2 + width + 2, .comment⟩
  | _ => none

end Stencil.Sheet
