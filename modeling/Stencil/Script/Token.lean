import Stencil.Script.Scan
import Stencil.Text.Search

/-!
# Tokens of a script

A script is cut into words, single punctuation characters, literals, blanks and comments.  Whether
a slash begins a regular expression depends on the last token before it.  A gap stands for a
maximal run of blanks and comments.
-/

namespace Stencil.Script

open Stencil.Text

inductive Kind where
  | word
  | punctuation
  | literal
  deriving DecidableEq

structure Token where
  kind : Kind
  text : List Char
  deriving DecidableEq

inductive Piece where
  | blank (text : List Char)
  | lineComment (text : List Char)
  | blockComment (text : List Char)
  | token (token : Token)
  deriving DecidableEq

def Piece.text : Piece → List Char
  | .blank text => text
  | .lineComment text => text
  | .blockComment text => text
  | .token found => found.text

def regexPunctuation : List Char :=
  "(,=:[!&|?\x7b\x7d;+-*%<>~^".toList

def regexWords : List (List Char) :=
  ["return", "typeof", "case", "do", "else", "in", "instanceof", "new", "void", "delete",
    "throw", "yield", "await"].map String.toList

/-- A slash after this token begins a regular expression. -/
def allowsRegex : Option Token → Bool
  | none => true
  | some ⟨.punctuation, text⟩ => text.all (regexPunctuation.contains ·)
  | some ⟨.word, text⟩ => regexWords.contains text
  | some ⟨.literal, _⟩ => false

def lineWidth (text : List Char) : Nat :=
  (text.takeWhile (· != '\n')).length

/-- The width of a block comment after its opening mark, which may have no end. -/
def blockWidth (text : List Char) : Nat :=
  match indexOf? ['*', '/'] text with
  | some width => width + 2
  | none => text.length

/-- What kind of piece begins with `c`, and how many characters after `c` belong to it. -/
def shapeAt (last : Option Token) (c : Char) (rest : List Char) : (List Char → Piece) × Nat :=
  let ofKind (kind : Kind) (text : List Char) : Piece := .token ⟨kind, text⟩
  if isBlank c then (.blank, blankWidth rest)
  else if c == '/' && rest.head? == some '/' then (.lineComment, lineWidth rest)
  else if c == '/' && rest.head? == some '*' then
    (.blockComment, 1 + blockWidth (rest.drop 1))
  else if c == '\x60' then (ofKind .literal, templateWidth rest)
  else if c == '"' || c == '\'' then (ofKind .literal, quotedWidth c rest)
  else if c == '/' && allowsRegex last then
    match regexWidth? false rest with
    | some width => (ofKind .literal, width)
    -- A regular expression that does not end on its line is none.
    | none => (ofKind .punctuation, 0)
  else if isWordChar c then (ofKind .word, wordWidth rest)
  else (ofKind .punctuation, 0)

def Piece.asToken? : Piece → Option Token
  | .token found => some found
  | _ => none

/-- The pieces of a script; `last` is the last token before it. -/
def piecesFrom (last : Option Token) (text : List Char) : List Piece :=
  match text with
  | [] => []
  | c :: rest =>
    let (make, width) := shapeAt last c rest
    let piece := make (c :: rest.take width)
    piece :: piecesFrom (piece.asToken?.or last) (rest.drop width)
termination_by text.length
decreasing_by
  simp only [List.length_drop, List.length_cons]
  omega

def pieces (script : List Char) : List Piece :=
  piecesFrom none script

/-- What stands between two tokens: nothing, a gap in a line, or a gap with a line break. -/
inductive Gap where
  | closed
  | space
  | line
  deriving DecidableEq

/-- The gap grown by a run of blanks or a comment. -/
def Gap.grow (gap : Gap) (text : List Char) : Gap :=
  if text.contains '\n' || gap = .line then .line else .space

def gapped (gap : Gap) : List Piece → List (Gap × Token)
  | [] => []
  | piece :: rest =>
    match piece.asToken? with
    | some found => (gap, found) :: gapped .closed rest
    | none => gapped (gap.grow piece.text) rest

end Stencil.Script
