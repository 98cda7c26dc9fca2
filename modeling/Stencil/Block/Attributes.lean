import Stencil.Data.Table
import Stencil.Text.Blank
import Stencil.Text.Numeric

/-!
# Block attributes

The attributes of a block stand between commas; a comma inside quotes separates nothing.  An
attribute is a value, found again by its place in the list, or a key and a value.
-/

namespace Stencil.Block

open Stencil.Text

inductive AttributeKey where
  | place (index : Nat)
  | name (key : List Char)
  deriving DecidableEq

abbrev Attributes := List (AttributeKey × List Char)

def isQuote (c : Char) : Bool :=
  c == '"' || c == '\''

/-- The parts of an attribute list.  A comma separates when an even number of quotes follows it;
the truth value says whether the number of quotes in the text is odd, and the text is its first
part. -/
def splitParts : List Char → Bool × List Char × List (List Char)
  | [] => (false, [], [])
  | c :: rest =>
    -- The quotes that follow are counted first, both kinds together.
    let (odd, first, later) := splitParts rest
    if c == ',' && !odd then (odd, [], first :: later)
    else (if isQuote c then !odd else odd, c :: first, later)

def parts (text : List Char) : List (List Char) :=
  let (_, first, later) := splitParts text
  first :: later

def unquote (value : List Char) : List Char :=
  match trim value with
  | c :: d :: rest =>
    if isQuote c && (d :: rest).getLast? == some c then (d :: rest).dropLast else c :: d :: rest
  -- A quote mark alone has no partner.
  | short => short

def isKeyChar (c : Char) : Bool :=
  isWord c || c == '-'

def keyed? (part : List Char) : Option (List Char × List Char) :=
  match part with
  | [] => none
  | c :: rest =>
    if c.isAlpha || c == '_' then
      let key := c :: rest.takeWhile isKeyChar
      match skipBlanks (rest.dropWhile isKeyChar) with
      | '=' :: value => some (key, skipBlanks value)
      | _ => none
    else none

/-- Add the attribute that stands at the given place. -/
def addPart (attributes : Attributes) (index : Nat) (part : List Char) : Attributes :=
  match keyed? (trim part) with
  | some (key, value) => Table.put attributes (.name key) (unquote value)
  | none => Table.put attributes (.place index) (unquote part)

def addParts (attributes : Attributes) (index : Nat) : List (List Char) → Attributes
  | [] => attributes
  | part :: rest => addParts (addPart attributes index part) (index + 1) rest

def attributes (raw : Option (List Char)) : Attributes :=
  match raw with
  | none => []
  | some text => if (trim text).isEmpty then [] else addParts [] 0 (parts text)

end Stencil.Block
