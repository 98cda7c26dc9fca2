import Stencil.Data.Yaml.Cursor

/-!
# Plain scalars

A plain scalar stands without quotes.  It ends before a colon or a comment that follows or
precedes a gap, and inside brackets before each indicator of theirs.  It may go on over several
lines, as long as they are indented: one line end becomes a space, and of more the first is
dropped.
-/

namespace Stencil.Data.Yaml

/-- The character ends a plain scalar or a run of it, given what follows. -/
def endsPlain (inBrackets : Bool) (c : Char) (after : Option Char) : Bool :=
  isGap (some c) ||
    (c == ':' && (isGap after || (inBrackets && after.any fun d => ",[]{}".contains d))) ||
    (inBrackets && ",?[]{}".contains c)

/-- The number of characters up to the end of a run. -/
def plainLength (inBrackets : Bool) : List Char → Nat
  | [] => 0
  | c :: rest =>
    if endsPlain inBrackets c rest.head? then 0 else plainLength inBrackets rest + 1

/-- The line ends that follow, with the spaces between them left out; nothing if a document ends
there. -/
def plainBreaks (fuel : Nat) (cursor : Cursor) : Option (List Char) × Cursor :=
  match fuel with
  | 0 => (some [], cursor)
  | fuel + 1 =>
    let cursor := cursor.skipWhile (· == ' ')
    match cursor.break? with
    | none => (some [], cursor)
    | some (c, cursor) =>
      if cursor.atDocumentMark then (none, cursor)
      else
        let (breaks, cursor) := plainBreaks fuel cursor
        (breaks.map (c :: ·), cursor)

/-- Fold line ends: a line feed alone becomes a space, and one before others is dropped. -/
def foldBreaks (first : Char) (others : List Char) : List Char :=
  if first != '\n' then first :: others
  else if others.isEmpty then [' ']
  else others

/-- What stands between two runs of a plain scalar, the place after it, and whether a line ended
there.  Nothing may stand between them if the scalar has ended. -/
def plainGap (cursor : Cursor) : List Char × Cursor × Bool :=
  let (spaces, cursor) := cursor.takeWhile (· == ' ')
  match cursor.break? with
  | none => (spaces, cursor, false)
  | some (c, cursor) =>
    if cursor.atDocumentMark then ([], cursor, true)
    else
      let (breaks, cursor) := plainBreaks (cursor.rest.length + 1) cursor
      ((breaks.map (foldBreaks c)).getD [], cursor, true)

/-- The runs of a plain scalar after those that were read and a gap. -/
def plainRuns (inBrackets : Bool) (level fuel : Nat) (read gap : List Char) (newLine : Bool)
    (cursor : Cursor) : List Char × Cursor × Bool :=
  match fuel with
  | 0 => (read, cursor, newLine)
  | fuel + 1 =>
    let length := plainLength inBrackets cursor.rest
    if cursor.peek == some '#' || length == 0 then (read, cursor, newLine)
    else
      let read := read ++ gap ++ cursor.rest.take length
      let (gap, cursor, newLine) := plainGap (cursor.skip length)
      if gap.isEmpty || (!inBrackets && cursor.column < level) then (read, cursor, newLine)
      else plainRuns inBrackets level fuel read gap newLine cursor

/-- The plain scalar that begins here, the place after it, and whether a line has ended since.
Its further lines stand at the level or deeper. -/
def readPlain (inBrackets : Bool) (level : Nat) (cursor : Cursor) : List Char × Cursor × Bool :=
  plainRuns inBrackets level (cursor.rest.length + 1) [] [] false cursor

end Stencil.Data.Yaml
