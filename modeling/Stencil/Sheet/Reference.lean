import Stencil.Data.Value
import Stencil.Text.Blank
import Stencil.Text.Cut
import Stencil.Text.Fold
import Stencil.Text.Numeric
import Stencil.Text.Search

/-!
# References of a style sheet

A sheet refers to other sheets by import statements and to other files by relative paths, which
begin with one or two dots behind a quote or behind `url(`.  While a sheet is worked on, the place
of an import statement is held by its number between two null characters.
-/

namespace Stencil.Sheet

open Stencil.Text

/-- Runs of slashes, and of dots that mean the same directory, are shortened. -/
def shortenPath : Nat → List Char → List Char
  | 0, path => path
  | fuel + 1, path =>
    if contains "//".toList path || contains "././".toList path then
      shortenPath fuel
        (replaceAll "././".toList "./".toList (replaceAll "//".toList ['/'] path))
    else path

/-- Every pass makes the path shorter, so that its length bounds their number. -/
def tidyPath (path : List Char) : List Char :=
  shortenPath path.length path

def endsTarget (c : Char) : Bool :=
  c == '"' || c == '\'' || c == ')' || c == ';' || isBlank c

/-- The target at the head of a text, behind a quote if there is one, and how much it takes. -/
def target? (text : List Char) : Option (List Char × Nat) :=
  let quoteWidth :=
    match text with
    | '"' :: _ | '\'' :: _ => 1
    | _ => 0
  let target := (text.drop quoteWidth).takeWhile (!endsTarget ·)
  if target.isEmpty then none else some (target, quoteWidth + target.length)

/-- The target of an import, which may be wrapped in `url(`. -/
def wrappedTarget? (text : List Char) : Option (List Char × Nat) :=
  let wrapped := do
    let inner ← afterWord? "url(".toList text
    let blanks := blankWidth inner
    let (target, width) ← target? (inner.drop blanks)
    return (target, 4 + blanks + width)
  wrapped.orElse fun _ => target? text

/-- The import statement that begins a text, through its semicolon, and its target. -/
def importStatement? (text : List Char) : Option (Hit (List Char)) := do
  let rest ← afterWord? "@import".toList text
  let blanks := blankWidth rest
  if blanks == 0 then none
  else
    let (target, width) ← wrappedTarget? (rest.drop blanks)
    let ending ← indexOf? [';'] (rest.drop (blanks + width))
    return ⟨7 + blanks + width + ending + 1, target⟩

def importMark (number : Nat) : List Char :=
  '\x00' :: Decimal.digitsOf number ++ ['\x00']

/-- The text with every import statement replaced by its mark, and the targets in order. -/
def takeImports (number : Nat) : List (Piece (List Char)) → List Char × List (List Char)
  | [] => ([], [])
  | .plain text :: rest =>
    let (others, targets) := takeImports number rest
    (text ++ others, targets)
  | .hit _ target :: rest =>
    let (others, targets) := takeImports (number + 1) rest
    (importMark number ++ others, target :: targets)

def importMark? (text : List Char) : Option (Hit Nat) :=
  match text with
  | '\x00' :: rest =>
    -- Digits of every script count.
    let digits := rest.takeWhile fun c => (decimalValue? c).isSome
    match digits, rest.drop digits.length with
    | _ :: _, '\x00' :: _ =>
      some ⟨digits.length + 2,
        digits.foldl (fun n c => 10 * n + (decimalValue? c).getD 0) 0⟩
    | _, _ => none
  | _ => none

/-- A relative reference: what introduces it, and whether it leads to the directory above. -/
structure Relative where
  lead : List Char
  upwards : Bool

def dots? : List Char → Option Bool
  | '.' :: '/' :: _ => some false
  | '.' :: '.' :: '/' :: _ => some true
  | _ => none

def relative? (text : List Char) : Option (Hit Relative) :=
  let found (lead rest : List Char) : Option (Hit Relative) :=
    (dots? rest).map fun upwards =>
      ⟨lead.length + (if upwards then 3 else 2), lead, upwards⟩
  match text with
  | '"' :: rest => found ['"'] rest
  | '\'' :: rest => found ['\''] rest
  | 'u' :: 'r' :: 'l' :: '(' :: rest => found "url(".toList rest
  | _ => none

/-- Every relative reference, led through another path first. -/
def leadReferences (through : List Char) (text : List Char) : List Char :=
  substitute relative?
    (fun _ reference =>
      reference.lead ++ through ++ if reference.upwards then "../".toList else [])
    text

end Stencil.Sheet
