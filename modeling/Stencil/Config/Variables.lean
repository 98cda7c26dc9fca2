import Stencil.Data.Table
import Stencil.Text.Blank
import Stencil.Text.Search

/-!
# Files of variables

Each line assigns a value to a name.  `export` may stand before the name, and blanks around the
equals sign.  A value in quotes may go on over several lines; any other one ends before a blank
and a number sign, or with its line.  A name without an equals sign has no value.  A line that
follows none of this is passed over.  Values are not expanded: `${NAME}` stands for itself.
-/

namespace Stencil.Config

open Stencil.Text

def isLineEnd (c : Char) : Bool :=
  c == '\n' || c == '\r'

def isInlineBlank (c : Char) : Bool :=
  isBlank c && !isLineEnd c

def skipInline (text : List Char) : List Char :=
  text.dropWhile isInlineBlank

def skipLine (text : List Char) : List Char :=
  match text.dropWhile (!isLineEnd ·) with
  | '\r' :: '\n' :: rest => rest
  | _ :: rest => rest
  | [] => []

/-- What follows the end of the line, if nothing but blanks and a comment comes before it. -/
def afterLine? (text : List Char) : Option (List Char) :=
  let text := skipInline text
  let text := if text.head? == some '#' then text.dropWhile (!isLineEnd ·) else text
  match text with
  | [] => some []
  | '\r' :: '\n' :: rest => some rest
  | c :: rest => if isLineEnd c then some rest else none

/-- The text without the word `export` at its beginning. -/
def skipExport (text : List Char) : List Char :=
  match after? "export".toList text with
  | some rest => if rest.head?.any isInlineBlank then skipInline rest else text
  | none => text

def readName? (text : List Char) : Option (List Char × List Char) :=
  match text with
  | '\'' :: rest =>
    let name := rest.takeWhile (· != '\'')
    match rest.dropWhile (· != '\'') with
    | _ :: rest => if name.isEmpty then none else some (name, rest)
    | [] => none
  | _ =>
    let isNameChar (c : Char) : Bool := c != '=' && c != '#' && !isBlank c
    let name := text.takeWhile isNameChar
    if name.isEmpty then none else some (name, text.dropWhile isNameChar)

/-- The text up to the closing quote, where a quote after a backslash does not close. -/
def closedAt? (quote : Char) : List Char → Option (List Char × List Char)
  | [] => none
  | [c] => if c == quote then some ([], []) else none
  | c :: d :: rest =>
    if c == quote then some ([], d :: rest)
    else if c == '\\' && d == quote then
      match closedAt? quote rest with
      | some (text, rest) => some (c :: d :: text, rest)
      -- Without another quote the escaped one closes after all.
      | none => some ([c], rest)
    else (closedAt? quote (d :: rest)).map fun (text, rest) => (c :: text, rest)

def variableEscapes (quote : Char) : List (Char × Char) :=
  if quote == '"' then
    [('\\', '\\'), ('\'', '\''), ('"', '"'), ('a', '\x07'), ('b', '\x08'), ('f', '\x0c'),
     ('n', '\n'), ('r', '\r'), ('t', '\t'), ('v', '\x0b')]
  else [('\\', '\\'), ('\'', '\'')]

def unescape (escapes : List (Char × Char)) : List Char → List Char
  | '\\' :: c :: rest =>
    match escapes.lookup c with
    | some found => found :: unescape escapes rest
    -- An unknown escape stands for itself.
    | none => '\\' :: unescape escapes (c :: rest)
  | c :: rest => c :: unescape escapes rest
  | [] => []

/-- The text before the first blanks that a number sign follows. -/
def beforeComment (text : List Char) : List Char :=
  match text with
  | [] => []
  | c :: rest =>
    if isBlank c && (skipBlanks rest).head? == some '#' then []
    else c :: beforeComment rest

/-- The value that stands here, and what follows it. -/
def readAssigned? (text : List Char) : Option (List Char × List Char) :=
  match text with
  | '\'' :: rest =>
    (closedAt? '\'' rest).map fun (text, rest) => (unescape (variableEscapes '\'') text, rest)
  | '"' :: rest =>
    (closedAt? '"' rest).map fun (text, rest) => (unescape (variableEscapes '"') text, rest)
  | _ =>
    some (trimEnd (beforeComment (text.takeWhile (!isLineEnd ·))),
      text.dropWhile (!isLineEnd ·))

/-- What a line is found to be, and where reading goes on. -/
structure Line where
  assignment : Option (List Char × Option (List Char))
  rest : List Char

/-- A line that begins with its name, or with a comment. -/
def readLine (text : List Char) : Line :=
  let finish (assignment : Option (List Char × Option (List Char))) (rest : List Char) : Line :=
    match afterLine? rest with
    | some rest => ⟨assignment, rest⟩
    | none => ⟨none, skipLine rest⟩
  let text := skipExport text
  if text.head? == some '#' then finish none text
  else
    match readName? text with
    | none => ⟨none, skipLine text⟩
    | some (name, rest) =>
      match skipInline rest with
      | '=' :: rest =>
        let rest := skipInline rest
        match readAssigned? rest with
        | some (value, rest) => finish (some (name, some value)) rest
        | none => ⟨none, skipLine rest⟩
      | rest => finish (some (name, none)) rest

def readLines (fuel : Nat) (text : List Char) : List (List Char × Option (List Char)) :=
  match fuel with
  | 0 => []
  | fuel + 1 =>
    let text := skipBlanks text
    if text.isEmpty then []
    else
      let line := readLine text
      line.assignment.toList ++ readLines fuel line.rest

/-- The variables of a text.  An assignment replaces an earlier one to the same name. -/
def readVariables (text : List Char) : List (List Char × List Char) :=
  (Table.ofList (readLines (text.length + 1) text)).filterMap fun (name, value) =>
    value.map fun value => (name, value)

end Stencil.Config
