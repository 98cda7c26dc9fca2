/-!
# Places in a text

A cursor knows what follows, and the offset, line and column at which it stands.  A line ends with
a line feed, a next-line mark, or a line or paragraph separator; the next-line mark counts as a
line feed.  A byte-order mark takes up no column.
-/

namespace Stencil.Data.Yaml

inductive Problem where
  /-- The text does not follow the notation. -/
  | malformed
  /-- A number or a character number is out of bounds. -/
  | outOfBounds
  deriving DecidableEq

def isBreak (c : Char) : Bool :=
  c == '\n' || c == '\x85' || c == '\u2028' || c == '\u2029'

def breakChar (c : Char) : Char :=
  if c == '\x85' then '\n' else c

/-- Nothing, a space, a tab or a line end: what may stand after an indicator. -/
def isGap : Option Char → Bool
  | none => true
  | some c => c == ' ' || c == '\t' || isBreak c

def isAllowed (c : Char) : Bool :=
  let n := c.toNat
  c == '\t' || c == '\n' || c == '\r' || n == 0x85 || (0x20 ≤ n && n ≤ 0x7E) ||
    (0xA0 ≤ n && n != 0xFFFE && n != 0xFFFF)

structure Cursor where
  rest : List Char
  offset : Nat
  line : Nat
  column : Nat

namespace Cursor

def ofText (text : List Char) : Cursor :=
  ⟨text, 0, 0, 0⟩

def peek (cursor : Cursor) : Option Char :=
  cursor.rest.head?

def next (cursor : Cursor) : Cursor :=
  match cursor.rest with
  | [] => cursor
  | c :: rest =>
    if isBreak c then ⟨rest, cursor.offset + 1, cursor.line + 1, 0⟩
    else if c == '\uFEFF' then { cursor with rest := rest, offset := cursor.offset + 1 }
    else ⟨rest, cursor.offset + 1, cursor.line, cursor.column + 1⟩

def skip (cursor : Cursor) : Nat → Cursor
  | 0 => cursor
  | n + 1 => cursor.next.skip n

def takeWhile (inClass : Char → Bool) (cursor : Cursor) : List Char × Cursor :=
  let taken := cursor.rest.takeWhile inClass
  (taken, cursor.skip taken.length)

def skipWhile (inClass : Char → Bool) (cursor : Cursor) : Cursor :=
  (cursor.takeWhile inClass).2

/-- The line end that stands here, and the place after it. -/
def break? (cursor : Cursor) : Option (Char × Cursor) :=
  match cursor.peek with
  | some c => if isBreak c then some (breakChar c, cursor.next) else none
  | none => none

/-- Three equal marks with a gap after them: dashes begin a document, and points end it. -/
def atMark (cursor : Cursor) (mark : Char) : Bool :=
  cursor.rest.take 3 == [mark, mark, mark] && isGap (cursor.rest.drop 3).head?

def atDocumentMark (cursor : Cursor) : Bool :=
  cursor.atMark '-' || cursor.atMark '.'

def skipComment (cursor : Cursor) : Cursor :=
  if cursor.peek == some '#' then cursor.skipWhile (!isBreak ·) else cursor

end Cursor

end Stencil.Data.Yaml
