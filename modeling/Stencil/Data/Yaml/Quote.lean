import Stencil.Data.Json
import Stencil.Data.Yaml.Plain

/-!
# Quoted scalars

In single quotes a quote is written twice.  In double quotes a backslash begins an escape, and one
at the end of a line joins it with the next.  Line ends are folded.
-/

namespace Stencil.Data.Yaml

def escapeLetters : List (Char × Char) :=
  [('0', '\x00'), ('a', '\x07'), ('b', '\x08'), ('t', '\t'), ('\t', '\t'), ('n', '\n'),
   ('v', '\x0b'), ('f', '\x0c'), ('r', '\r'), ('e', '\x1b'), (' ', ' '), ('"', '"'),
   ('\\', '\\'), ('/', '/'), ('N', '\x85'), ('_', '\xa0'), ('L', '\u2028'), ('P', '\u2029')]

def escapeDigits : List (Char × Nat) :=
  [('x', 2), ('u', 4), ('U', 8)]

/-- The line ends that follow, with the blanks before each of them left out. -/
def quotedBreaks (fuel : Nat) (cursor : Cursor) : Except Problem (List Char × Cursor) :=
  match fuel with
  | 0 => .error .malformed
  | fuel + 1 =>
    if cursor.atDocumentMark then .error .malformed
    else
      let cursor := cursor.skipWhile fun c => c == ' ' || c == '\t'
      match cursor.break? with
      | none => .ok ([], cursor)
      | some (c, cursor) => do
        let (breaks, cursor) ← quotedBreaks fuel cursor
        .ok (c :: breaks, cursor)

def numberedChar (count : Nat) (cursor : Cursor) : Except Problem (List Char × Cursor) :=
  let digits := cursor.rest.take count
  match digits.mapM Json.hexValue? with
  | none => .error .malformed
  | some values =>
    let n := values.foldl (fun n d => 16 * n + d) 0
    if digits.length < count then .error .malformed
    else if 0x10FFFF < n then .error .outOfBounds
    else .ok ([Json.unitChar n], cursor.skip count)

def readEscape (cursor : Cursor) : Except Problem (List Char × Cursor) :=
  match cursor.peek with
  | none => .error .malformed
  | some c =>
    match escapeLetters.lookup c, escapeDigits.lookup c with
    | some found, _ => .ok ([found], cursor.next)
    | none, some count => numberedChar count cursor.next
    | none, none =>
      match cursor.break? with
      | some (_, cursor) => quotedBreaks (cursor.rest.length + 1) cursor
      | none => .error .malformed

/-- What blanks and line ends between two words stand for. -/
def quotedGap (cursor : Cursor) : Except Problem (List Char × Cursor) :=
  let (blanks, cursor) := cursor.takeWhile fun c => c == ' ' || c == '\t'
  match cursor.break? with
  | none => .ok (blanks, cursor)
  | some (c, cursor) => do
    let (breaks, cursor) ← quotedBreaks (cursor.rest.length + 1) cursor
    .ok (foldBreaks c breaks, cursor)

/-- The rest of a quoted scalar after its opening quote. -/
def readQuoted (quote : Char) (fuel : Nat) (cursor : Cursor) :
    Except Problem (List Char × Cursor) :=
  match fuel with
  | 0 => .error .malformed
  | fuel + 1 =>
    match cursor.peek with
    | none => .error .malformed
    | some c =>
      if c == quote then
        if quote == '\'' && cursor.next.peek == some quote then do
          let (text, cursor) ← readQuoted quote fuel (cursor.skip 2)
          .ok (quote :: text, cursor)
        else .ok ([], cursor.next)
      else do
        let (found, cursor) ←
          if isGap (some c) then quotedGap cursor
          else if quote == '"' && c == '\\' then readEscape cursor.next
          else .ok ([c], cursor.next)
        let (text, cursor) ← readQuoted quote fuel cursor
        .ok (found ++ text, cursor)

end Stencil.Data.Yaml
