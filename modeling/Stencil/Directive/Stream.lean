import Stencil.Directive.Meaning
import Stencil.Fault.Template

/-!
# The tokens of a template

A directive ends with the first closing mark outside quoted strings, or with the first closing mark
at all if its quotes never close.  An opening mark that is followed by another one before the close
is plain text; the close of the last of them is searched anew behind it.
-/

namespace Stencil.Directive

open Stencil.Text

/-- The position of the first closing mark outside quoted strings.  `quote` is the quote of the
string that is open here. -/
def unquotedClose? (quote : Option Char) : List Char → Option Nat
  | [] => none
  | c :: rest =>
    match quote with
    | some q =>
      if c == '\\' then
        match rest with
        | [] => none
        | _ :: rest => (unquotedClose? (some q) rest).map (· + 2)
      else (unquotedClose? (if c == q then none else some q) rest).map (· + 1)
    | none =>
      if c == '"' || c == '\'' then (unquotedClose? (some c) rest).map (· + 1)
      else if closeMark.isPrefixOf (c :: rest) then some 0
      else (unquotedClose? none rest).map (· + 1)

/-- The position of the mark that closes a directive, in the text after its opening mark. -/
def closePosition? (body : List Char) : Option Nat :=
  (unquotedClose? none body).or (indexOf? closeMark body)

structure Span where
  offset : Nat
  inside : Nat

def Span.width (span : Span) : Nat :=
  span.inside + openMark.length + closeMark.length

/-- The directive of a text that begins with an opening mark. -/
def innermost? (text : List Char) : Option Span := do
  let close ← closePosition? (text.drop 2)
  -- From the second character on, so that of three braces the last two may open the directive.
  match lastIndexOf? openMark ((text.drop 1).take (close + 1)) with
  | none => some ⟨0, close⟩
  | some inner =>
    let close ← closePosition? (text.drop (inner + 3))
    some ⟨inner + 1, close⟩

def plainToken (start : Nat) (text : List Char) : List Token :=
  if text.isEmpty then [] else [⟨start, text, .text⟩]

def shownDirective : Nat := 40

theorem indexOf?_openMark_nil : indexOf? openMark [] = none := rfl

/-- The tokens of a text that begins at the given position. -/
def tokensFrom (start : Nat) (text : List Char) : Except TemplateFault (List Token) :=
  match _hmark : indexOf? openMark text with
  | none => .ok (plainToken start text)
  | some mark =>
    match innermost? (text.drop mark) with
    | none =>
      .error (.malformedDirective ((text.drop mark).take shownDirective) .unterminated
        (some (start + mark : Nat)))
    | some span => do
      let offset := mark + span.offset
      let raw := (text.drop offset).take span.width
      let later ← tokensFrom (start + offset + span.width) ((text.drop offset).drop span.width)
      .ok (plainToken start (text.take offset) ++ classify raw (start + offset) :: later)
termination_by text.length
decreasing_by
  have hlength : 0 < text.length := List.length_pos_iff.mpr fun hnil => by
    simp [hnil, indexOf?_openMark_nil] at _hmark
  simp only [List.length_drop, Span.width, openMark, closeMark, List.length_cons,
    List.length_nil]
  omega

def tokens (text : List Char) : Except TemplateFault (List Token) :=
  tokensFrom 0 text

end Stencil.Directive
