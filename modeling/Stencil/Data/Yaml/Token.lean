import Stencil.Data.Yaml.Block
import Stencil.Data.Yaml.Quote

/-!
# Tokens

Indentation is read off as tokens that begin and end lists and mappings.  A colon after a scalar
or a bracket makes a key of what stands before it on the line, so the place where such a key may
have begun is remembered, and the tokens for it are put in when the colon is found.
-/

namespace Stencil.Data.Yaml

inductive Token where
  | documentStart
  | documentEnd
  /-- An indented list or mapping begins, or the innermost one ends. -/
  | listStart
  | mappingStart
  | blockEnd
  | openList
  | closeList
  | openMapping
  | closeMapping
  | comma
  | dash
  | key
  | value
  | scalar (plain : Bool) (text : List Char)
  deriving DecidableEq

structure PossibleKey where
  /-- The number of tokens before it. -/
  position : Nat
  /-- Nothing but a key can stand there. -/
  required : Bool
  offset : Nat
  line : Nat
  column : Nat

/-- What has been read of a text.  The level is the column below which nothing belongs to the
innermost indented list or mapping, plus one; it is zero where there is none. -/
structure Layout where
  cursor : Cursor
  tokens : Array Token
  level : Nat
  outerLevels : List Nat
  /-- The possible key within the innermost brackets. -/
  candidate : Option PossibleKey
  /-- Those around each opening bracket, from the inside out. -/
  outerCandidates : List (Option PossibleKey)
  keyAllowed : Bool

namespace Layout

def ofText (text : List Char) : Layout :=
  ⟨.ofText text, #[], 0, [], none, [], true⟩

def inBrackets (layout : Layout) : Bool :=
  !layout.outerCandidates.isEmpty

def push (layout : Layout) (token : Token) : Layout :=
  { layout with tokens := layout.tokens.push token }

def step (layout : Layout) (count : Nat) : Layout :=
  { layout with cursor := layout.cursor.skip count }

def insert (layout : Layout) (position : Nat) (token : Token) : Layout :=
  { layout with tokens := layout.tokens.insertIdxIfInBounds position token }

/-- Step over spaces, comments and line ends.  A key may begin on a new line. -/
def skipIdle (fuel : Nat) (layout : Layout) : Layout :=
  match fuel with
  | 0 => layout
  | fuel + 1 =>
    let cursor := (layout.cursor.skipWhile (· == ' ')).skipComment
    match cursor.break? with
    | none => { layout with cursor := cursor }
    | some (_, cursor) =>
      skipIdle fuel
        { layout with cursor := cursor, keyAllowed := layout.keyAllowed || !layout.inBrackets }

/-- End the lists and mappings that are indented more deeply than a level. -/
def unwindTo (layout : Layout) (level : Nat) : List Nat → Layout
  | [] => layout
  | outer :: rest =>
    if level < layout.level then
      unwindTo { layout.push .blockEnd with level := outer, outerLevels := rest } level rest
    else layout

/-- End what is indented more deeply than the level, unless brackets are open. -/
def unwind (layout : Layout) (level : Nat) : Layout :=
  if layout.inBrackets then layout else layout.unwindTo level layout.outerLevels

/-- Begin a list or mapping at a column, with its token before the tokens from a position on, if
it is indented more deeply than the one around it. -/
def indent (layout : Layout) (column position : Nat) (token : Token) : Layout :=
  if layout.level ≤ column then
    { layout.insert position token with
      level := column + 1
      outerLevels := layout.level :: layout.outerLevels }
  else layout

/-- The candidate has to be on the same line, and not too far away. -/
def isStale (cursor : Cursor) (candidate : PossibleKey) : Bool :=
  candidate.line != cursor.line || 1024 < cursor.offset - candidate.offset

def freshCandidate (cursor : Cursor) (candidate : Option PossibleKey) :
    Except Problem (Option PossibleKey) :=
  match candidate with
  | none => .ok none
  | some found =>
    if !isStale cursor found then .ok (some found)
    else if found.required then .error .malformed
    else .ok none

def dropStale (layout : Layout) : Except Problem Layout := do
  let candidate ← freshCandidate layout.cursor layout.candidate
  let outer ← layout.outerCandidates.mapM (freshCandidate layout.cursor)
  .ok { layout with candidate := candidate, outerCandidates := outer }

def dropCandidate (layout : Layout) : Except Problem Layout :=
  if layout.candidate.any (·.required) then .error .malformed
  else .ok { layout with candidate := none }

def noteCandidate (layout : Layout) : Except Problem Layout :=
  if !layout.keyAllowed then .ok layout
  else do
    let layout ← layout.dropCandidate
    let cursor := layout.cursor
    let required := !layout.inBrackets && layout.level == cursor.column + 1
    let candidate : PossibleKey :=
      ⟨layout.tokens.size, required, cursor.offset, cursor.line, cursor.column⟩
    .ok { layout with candidate := some candidate }

def readMark (layout : Layout) (token : Token) : Except Problem Layout := do
  let layout ← (layout.unwind 0).dropCandidate
  .ok { (layout.push token).step 3 with keyAllowed := false }

def readOpening (layout : Layout) (token : Token) : Except Problem Layout := do
  let layout ← layout.noteCandidate
  .ok { (layout.push token).step 1 with
    candidate := none
    outerCandidates := layout.candidate :: layout.outerCandidates
    keyAllowed := true }

def readClosing (layout : Layout) (token : Token) : Except Problem Layout := do
  let layout ← layout.dropCandidate
  match layout.outerCandidates with
  | [] => .error .malformed
  | candidate :: rest =>
    .ok { (layout.push token).step 1 with
      candidate := candidate
      outerCandidates := rest
      keyAllowed := false }

def readComma (layout : Layout) : Except Problem Layout := do
  let layout ← layout.dropCandidate
  .ok { (layout.push .comma).step 1 with keyAllowed := true }

/-- Outside of brackets, something begins here that needs a place of its own. -/
def beginHere (layout : Layout) (token : Token) : Except Problem Layout :=
  if layout.inBrackets then .ok layout
  else if !layout.keyAllowed then .error .malformed
  else .ok (layout.indent layout.cursor.column layout.tokens.size token)

def readDash (layout : Layout) : Except Problem Layout := do
  let layout ← (← layout.beginHere .listStart).dropCandidate
  .ok { (layout.push .dash).step 1 with keyAllowed := true }

def readKey (layout : Layout) : Except Problem Layout := do
  let layout ← (← layout.beginHere .mappingStart).dropCandidate
  .ok { (layout.push .key).step 1 with keyAllowed := !layout.inBrackets }

def readValue (layout : Layout) : Except Problem Layout := do
  match layout.candidate with
  | some candidate =>
    -- The key has been read already, so its token is put in where it began.
    let layout := layout.insert candidate.position .key
    let layout :=
      if layout.inBrackets then layout
      else layout.indent candidate.column candidate.position .mappingStart
    .ok { (layout.push .value).step 1 with candidate := none, keyAllowed := false }
  | none =>
    let layout ← layout.beginHere .mappingStart
    .ok { (layout.push .value).step 1 with keyAllowed := !layout.inBrackets }

def readScalar (layout : Layout) (plain : Bool) (found : List Char × Cursor) (keyAllowed : Bool) :
    Layout :=
  { layout.push (.scalar plain found.1) with cursor := found.2, keyAllowed := keyAllowed }

def readBlockScalar (layout : Layout) (folded : Bool) : Except Problem Layout := do
  let layout ← layout.dropCandidate
  .ok (layout.readScalar false (← readBlock folded layout.level layout.cursor.next) true)

def readQuotedScalar (layout : Layout) (quote : Char) : Except Problem Layout := do
  let layout ← layout.noteCandidate
  let cursor := layout.cursor.next
  .ok (layout.readScalar false (← readQuoted quote (cursor.rest.length + 1) cursor) false)

def readPlainScalar (layout : Layout) : Except Problem Layout := do
  let layout ← layout.noteCandidate
  let (text, cursor, newLine) := readPlain layout.inBrackets layout.level layout.cursor
  .ok (layout.readScalar true (text, cursor) newLine)

/-- A plain scalar may begin with any character that is no indicator.  A dash may begin one if no
gap follows, and so may a question mark and a colon outside of brackets. -/
def startsPlain (inBrackets : Bool) (c : Char) (after : Option Char) : Bool :=
  !(isGap (some c) || "-?:,[]{}#&*!|>'\"%@\x60".contains c) ||
    (!isGap after && (c == '-' || (!inBrackets && (c == '?' || c == ':'))))

def readToken (layout : Layout) (c : Char) : Except Problem Layout :=
  let after := layout.cursor.next.peek
  let inside := layout.inBrackets
  if layout.cursor.column == 0 && layout.cursor.atMark '-' then layout.readMark .documentStart
  else if layout.cursor.column == 0 && layout.cursor.atMark '.' then layout.readMark .documentEnd
  else if c == '[' then layout.readOpening .openList
  else if c == '{' then layout.readOpening .openMapping
  else if c == ']' then layout.readClosing .closeList
  else if c == '}' then layout.readClosing .closeMapping
  else if c == ',' then layout.readComma
  else if c == '-' && isGap after then layout.readDash
  else if c == '?' && (inside || isGap after) then layout.readKey
  else if c == ':' && (inside || isGap after) then layout.readValue
  else if c == '|' && !inside then layout.readBlockScalar false
  else if c == '>' && !inside then layout.readBlockScalar true
  else if c == '\'' || c == '"' then layout.readQuotedScalar c
  else if startsPlain inside c after then layout.readPlainScalar
  else .error .malformed

def readAll (fuel : Nat) (layout : Layout) : Except Problem Layout :=
  match fuel with
  | 0 => .error .malformed
  | fuel + 1 => do
    let cursor := layout.cursor
    let marked := cursor.offset == 0 && cursor.peek == some '\uFEFF'
    let layout := layout.step (if marked then 1 else 0)
    let layout ← (layout.skipIdle (cursor.rest.length + 1)).dropStale
    match layout.cursor.peek with
    | none => (layout.unwind 0).dropCandidate
    | some c => readAll fuel (← (layout.unwind (layout.cursor.column + 1)).readToken c)

end Layout

def tokens (text : List Char) : Except Problem (List Token) :=
  if text.all isAllowed then
    (Layout.readAll (text.length + 2) (.ofText text)).map (·.tokens.toList)
  else .error .malformed

end Stencil.Data.Yaml
