import Stencil.Host.Literal
import Stencil.Text.Blank
import Stencil.Text.Newline
import Stencil.Text.Search

/-!
# Tokens of a template

A template is data with tags in it.  A tag that prints begins with `<?=`, a tag of code with `<?py`
and a remark with `<?#`; each ends at the first `?>` outside of quotes.  A minus sign at an end of
a tag removes the blanks beyond it.  Within open brackets a tag cannot end.
-/

namespace Stencil.Host

open Stencil.Text

inductive Tag where
  | print
  | code
  | remark
  deriving DecidableEq

inductive Token where
  | data (text : List Char)
  | openTag (tag : Tag)
  | closeTag (tag : Tag)
  | word (name : List Char)
  | text (s : List Char)
  | integer (n : Nat)
  | decimal (x : Float)
  | sign (s : String)

namespace Token

/-- The tag that begins a text and what follows its opening mark. -/
def opening? (text : List Char) : Option (Tag × Nat) :=
  match text with
  | '<' :: '?' :: '=' :: _ => some (.print, 3)
  | '<' :: '?' :: '#' :: _ => some (.remark, 3)
  | '<' :: '?' :: 'p' :: 'y' :: _ => some (.code, 4)
  | _ => none

/-- A plus or minus sign directly behind an opening mark belongs to the mark. -/
def edge (text : List Char) : Option Char :=
  match text with
  | '-' :: _ => some '-'
  | '+' :: _ => some '+'
  | _ => none

/-- The width of the closing mark that begins the text, with the blanks it removes. -/
def closing? (tag : Tag) (text : List Char) : Option Nat :=
  match text with
  | '?' :: '>' :: _ => some 2
  | '-' :: '?' :: '>' :: rest => some (3 + blankWidth rest)
  | '+' :: '?' :: '>' :: _ => if tag = .print then none else some 3
  | _ => none

def longSigns : List (List Char) :=
  [['/', '/'], ['*', '*'], ['=', '='], ['!', '='], ['>', '='], ['<', '=']]

def shortSigns : List Char :=
  ['+', '-', '/', '*', '%', '~', '[', ']', '(', ')', '{', '}', '>', '<', '=', '.', ':', '|', ',',
   ';']

def signWidth (text : List Char) : Nat :=
  if longSigns.contains (text.take 2) then 2
  else
    match text with
    | c :: _ => if shortSigns.contains c then 1 else 0
    | [] => 0

/-- The brackets that are open after a sign, by what closes them; a bracket that closes another
one is an error. -/
def bracketsAfter (brackets : List Char) (sign : List Char) : Option (List Char) :=
  match sign with
  | ['('] => some (')' :: brackets)
  | ['['] => some (']' :: brackets)
  | ['{'] => some ('}' :: brackets)
  | [')'] | [']'] | ['}'] =>
    match brackets with
    | expected :: rest => if sign == [expected] then some rest else none
    | [] => none
  | _ => some brackets

/-- A lexeme within a tag: its width, its token if it is not blank, and the brackets open behind
it. -/
structure Lexeme where
  width : Nat
  token : Option Token
  brackets : List Char

def quoted? (quote : Char) (rest : List Char) : Option (Nat × List Char) := do
  let width ← closingWidth? quote rest
  let meant ← readQuoted (rest.take (width - 1))
  return (width + 1, meant)

/-- The lexeme at the head of a text; `before` is the character in front of it. -/
def lexeme? (before : Char) (brackets text : List Char) : Option Lexeme :=
  match text with
  | [] => none
  | c :: rest =>
    if isBlank c then some ⟨1, none, brackets⟩
    else
      -- Behind a point digits are an index, and no decimal.
      match if before == '.' then 0 else decimalWidth text with
      | width + 1 =>
        (Decimal.readFloat? (text.take (width + 1))).map fun x =>
          ⟨width + 1, some (.decimal x), brackets⟩
      | 0 =>
        match integer? text with
        | some (width, n) => some ⟨width, some (.integer n), brackets⟩
        | none =>
          if isWord c then
            let name := text.takeWhile isWord
            if isIdentifier name then some ⟨name.length, some (.word name), brackets⟩ else none
          else if c == '\'' || c == '"' then
            (quoted? c rest).map fun (width, meant) => ⟨width, some (.text meant), brackets⟩
          else
            match signWidth text with
            | 0 => none
            | width =>
              let sign := text.take width
              (bracketsAfter brackets sign).map fun brackets =>
                ⟨width, some (.sign (String.ofList sign)), brackets⟩

/-- Where in a template the reader is. -/
inductive Place where
  | outside
  | inside (tag : Tag) (brackets : List Char)
  | remark (begun : Bool)

def dataToken (text : List Char) : List Token :=
  if text.isEmpty then [] else [.data text]

/-- Read on from a place; `before` is the character in front of the text and `held` the data since
the last tag, in reverse. -/
def readFrom (place : Place) (before : Char) (held text : List Char) : Option (List Token) :=
  match place, text with
  | .outside, [] => some (dataToken held.reverse)
  -- A remark of which nothing has been read yet may end with the text.
  | .remark false, [] => some []
  | _, [] => none
  | .outside, c :: rest =>
    match opening? (c :: rest) with
    | none => readFrom .outside c (c :: held) rest
    | some (tag, width) =>
      let mark := edge ((c :: rest).drop width)
      let data := if mark == some '-' then trimEnd held.reverse else held.reverse
      let total := width + if mark.isSome then 1 else 0
      if tag = .remark then
        (readFrom (.remark false) ' ' [] (rest.drop (total - 1))).map (dataToken data ++ ·)
      else
        (readFrom (.inside tag []) ' ' [] (rest.drop (total - 1))).map
          (dataToken data ++ .openTag tag :: ·)
  | .remark _, c :: rest =>
    match closing? .remark (c :: rest) with
    | some width => readFrom .outside ' ' [] (rest.drop (width - 1))
    | none => readFrom (.remark true) c [] rest
  | .inside tag brackets, c :: rest =>
    match if brackets.isEmpty then closing? tag (c :: rest) else none with
    | some width =>
      (readFrom .outside ' ' [] (rest.drop (width - 1))).map (.closeTag tag :: ·)
    | none =>
      match lexeme? before brackets (c :: rest) with
      | none => none
      | some lexeme =>
        let last := ((c :: rest).take lexeme.width).getLastD c
        (readFrom (.inside tag lexeme.brackets) last [] (rest.drop (lexeme.width - 1))).map
          (lexeme.token.toList ++ ·)
termination_by text.length

/-- The tokens of a template, unless it holds something that is no token. -/
def ofSource? (source : List Char) : Option (List Token) :=
  readFrom .outside ' ' [] (unifyNewlines source)

end Token

end Stencil.Host
