import Stencil.Directive.Token
import Stencil.Text.Blank
import Stencil.Text.Numeric
import Stencil.Text.Search

/-!
# The meaning of a directive

What stands between the braces decides what a directive means.  An underscore directly after the
opening braces marks what is to be translated.
-/

namespace Stencil.Directive

open Stencil.Text

/-- The expression begins with a variable, which is not a private one. -/
def beginsWithVariable : List Char → Bool
  | '$' :: c :: _ => c.isAlpha
  | _ => false

/-- The rest of a string literal after its opening quote, which has to be the whole text. -/
def isLiteralRest : List Char → Bool
  | [] => false
  | '\\' :: rest =>
    match rest with
    | [] => false
    | _ :: rest => isLiteralRest rest
  | c :: rest => if c == '"' then rest.isEmpty else isLiteralRest rest

def isLiteral : List Char → Bool
  | '"' :: rest => isLiteralRest rest
  | _ => false

def isBlockNameChar (c : Char) : Bool :=
  isWord c || c == '.' || c == '-'

/-- The attribute list of a block tag after its name: none, or one in parentheses. -/
def blockAttributes? (text : List Char) : Option (Option (List Char)) :=
  match skipBlanks text with
  | [] => some none
  | '(' :: rest =>
    if rest.getLast? == some ')' then some (some rest.dropLast) else none
  | _ => none

def blockTag? (body : List Char) : Option Meaning :=
  match after? "block:".toList body with
  | some rest =>
    let name := rest.takeWhile isBlockNameChar
    if name.isEmpty then none
    else (blockAttributes? (rest.drop name.length)).map (.blockOpen name)
  | none =>
    match after? "/block:".toList body with
    | some name =>
      -- Nothing may follow the name of a closing tag.
      if !name.isEmpty && name.all isBlockNameChar then some (.blockClose name) else none
    | none => none

/-- Directives that are a keyword, with an expression or alone. -/
def keywordMeaning (body : List Char) : Meaning :=
  let keyword := body.takeWhile (!isBlank ·)
  let rest := skipBlanks (body.drop keyword.length)
  if rest.isEmpty then
    if keyword = "else".toList then .otherwise
    else if keyword = "/if".toList then .endBranch
    else if keyword = "/foreach".toList then .endLoop
    else .unknown
  else if keyword = "if".toList then .branch rest
  else if keyword = "elseif".toList then .elseBranch rest
  else if keyword = "foreach".toList then .loop rest
  else .unknown

def translatedMeaning (body : List Char) : Meaning :=
  match after? "var:".toList body with
  | some rest =>
    let expression := trim rest
    if beginsWithVariable expression then .translatedVariable expression else .unknown
  | none => if isLiteral body then .translated body else .unknown

def plainMeaning (body : List Char) : Meaning :=
  match after? "var:".toList body with
  | some rest =>
    let expression := trim rest
    if beginsWithVariable expression then .variable expression else .unknown
  | none => (blockTag? body).getD (keywordMeaning body)

def bodyOf (raw : List Char) : List Char :=
  (raw.drop openMark.length).take (raw.length - openMark.length - closeMark.length)

def meaningOf (raw : List Char) : Meaning :=
  match bodyOf raw with
  -- A blank before the underscore keeps it from marking a translation.
  | '_' :: rest => translatedMeaning (trim rest)
  | body => plainMeaning (trim body)

/-- The token of a directive that stands at the given position. -/
def classify (raw : List Char) (start : Nat) : Token :=
  ⟨start, raw, meaningOf raw⟩

end Stencil.Directive
