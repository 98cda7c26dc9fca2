import Stencil.Data.Yaml.Cursor

/-!
# Block scalars

A block scalar begins with an indicator and goes on over all lines that are indented deeply
enough.  A literal one keeps its line ends.  A folded one joins lines with spaces, except next to
empty lines and to lines that begin with a blank.  A sign in the header says whether the line ends
after the last line are kept or dropped; without one, a single one stays.
-/

namespace Stencil.Data.Yaml

/-- What becomes of the line ends after the last line. -/
inductive Chomping where
  | strip
  | clip
  | keep
  deriving DecidableEq

structure BlockHeader where
  chomping : Chomping
  /-- The depth below the surrounding level, where it is given. -/
  depth : Option Nat

def chomping? (c : Option Char) : Option Chomping :=
  match c with
  | some '+' => some .keep
  | some '-' => some .strip
  | _ => none

def depthDigit? (c : Option Char) : Option Nat :=
  match c with
  | some c => if c.isDigit then some (c.toNat - 48) else none
  | none => none

/-- The signs after the indicator: a sign and a digit, each of them optional, in any order. -/
def readHeader (cursor : Cursor) : Except Problem (BlockHeader × Cursor) :=
  let (first, afterFirst) :=
    match chomping? cursor.peek with
    | some found => (some found, cursor.next)
    | none => (none, cursor)
  let (depth, afterDepth) :=
    match depthDigit? afterFirst.peek with
    | some digit => (some digit, afterFirst.next)
    | none => (none, afterFirst)
  let (sign, afterSign) :=
    match first, depth, chomping? afterDepth.peek with
    | none, some _, some found => (some found, afterDepth.next)
    | _, _, _ => (first, afterDepth)
  let gap := afterSign.peek
  if depth == some 0 || !isGap gap || gap == some '\t' then .error .malformed
  else .ok (⟨sign.getD .clip, depth⟩, afterSign)

def skipHeaderLine (cursor : Cursor) : Except Problem Cursor :=
  let cursor := (cursor.skipWhile (· == ' ')).skipComment
  match cursor.break?, cursor.peek with
  | some (_, cursor), _ => .ok cursor
  | none, none => .ok cursor
  | none, some _ => .error .malformed

/-- The empty lines that follow, and the greatest column that spaces lead to. -/
def measureLevel (fuel deepest : Nat) (cursor : Cursor) : List Char × Nat × Cursor :=
  match fuel with
  | 0 => ([], deepest, cursor)
  | fuel + 1 =>
    let cursor := cursor.skipWhile (· == ' ')
    let deepest := max deepest cursor.column
    match cursor.break? with
    | none => ([], deepest, cursor)
    | some (c, cursor) =>
      let (breaks, deepest, cursor) := measureLevel fuel deepest cursor
      (c :: breaks, deepest, cursor)

def Cursor.skipTo (cursor : Cursor) (column : Nat) : Cursor :=
  let spaces := (cursor.rest.takeWhile (· == ' ')).length
  cursor.skip (min spaces (column - cursor.column))

/-- The empty lines that follow, up to the indentation of the next line. -/
def blockBreaks (level fuel : Nat) (cursor : Cursor) : List Char × Cursor :=
  match fuel with
  | 0 => ([], cursor)
  | fuel + 1 =>
    let cursor := cursor.skipTo level
    match cursor.break? with
    | none => ([], cursor)
    | some (c, cursor) =>
      let (breaks, cursor) := blockBreaks level fuel cursor
      (c :: breaks, cursor)

def startsWithBlank (cursor : Cursor) : Bool :=
  cursor.peek == some ' ' || cursor.peek == some '\t'

/-- What joins a line with the next one, given the line's end and the empty lines between. -/
def joinLines (folded : Bool) (lineEnd : List Char) (apart : Bool) (breaks : List Char) :
    List Char :=
  if folded && lineEnd == ['\n'] && apart then
    if breaks.isEmpty then [' '] else []
  else lineEnd

def blockLines (folded : Bool) (chomping : Chomping) (level fuel : Nat) (breaks : List Char)
    (cursor : Cursor) : List Char × Cursor :=
  match fuel with
  | 0 => ([], cursor)
  | fuel + 1 =>
    if cursor.column != level || cursor.peek.isNone then
      (if chomping == .keep then breaks else [], cursor)
    else
      let blankStart := startsWithBlank cursor
      let (line, afterLine) := cursor.takeWhile (!isBreak ·)
      let (lineEnd, afterEnd) :=
        match afterLine.break? with
        | some (c, cursor) => ([c], cursor)
        | none => ([], afterLine)
      let (further, next) := blockBreaks level (afterEnd.rest.length + 1) afterEnd
      let more := next.column == level && next.peek.isSome
      let joint :=
        if more then joinLines folded lineEnd (!blankStart && !startsWithBlank next) further
        else if chomping == .strip then []
        else lineEnd
      let (text, cursor) := blockLines folded chomping level fuel further next
      (breaks ++ line ++ joint ++ text, cursor)

/-- The block scalar after its indicator, below a surrounding level. -/
def readBlock (folded : Bool) (outer : Nat) (cursor : Cursor) :
    Except Problem (List Char × Cursor) := do
  let (header, cursor) ← readHeader cursor
  let cursor ← skipHeaderLine cursor
  let least := max outer 1
  let fuel := cursor.rest.length + 1
  let (level, breaks, cursor) :=
    match header.depth with
    | some depth =>
      let level := least + depth - 1
      let (breaks, cursor) := blockBreaks level fuel cursor
      (level, breaks, cursor)
    | none =>
      let (breaks, deepest, cursor) := measureLevel fuel 0 cursor
      (max least deepest, breaks, cursor)
  .ok (blockLines folded header.chomping level fuel breaks cursor)

end Stencil.Data.Yaml
