import Stencil.Data.Yaml.Token

/-!
# Nodes

The tokens of a text make up a tree of scalars, lists and mappings.  What is left out where a node
could stand is an empty plain scalar.
-/

namespace Stencil.Data.Yaml

inductive Node where
  | scalar (plain : Bool) (text : List Char)
  | list (items : List Node)
  | mapping (entries : List (Node × Node))

instance : Inhabited Node := ⟨.scalar true []⟩

namespace Node

def empty : Node :=
  .scalar true []

def comes (expected : List Token) (tokens : List Token) : Bool :=
  tokens.head?.any expected.contains

/-- Where a node may stand. -/
inductive Setting where
  /-- Between brackets, where nothing is indented. -/
  | brackets
  | block
  /-- In a mapping, where the dashes of a list need no indentation. -/
  | entry
  deriving DecidableEq

mutual

/-- The node that begins with the first token; `fuel` bounds the number of steps. -/
def readNode (fuel : Nat) (setting : Setting) (tokens : List Token) :
    Except Problem (Node × List Token) :=
  match fuel with
  | 0 => .error .malformed
  | fuel + 1 =>
    match tokens with
    | .scalar plain text :: rest => .ok (.scalar plain text, rest)
    | .openList :: rest => do
      let (items, rest) ← readBracketItems fuel true rest
      .ok (.list items, rest)
    | .openMapping :: rest => do
      let (entries, rest) ← readBracketEntries fuel true rest
      .ok (.mapping entries, rest)
    | .dash :: _ =>
      if setting == .entry then do
        let (items, rest) ← readItems fuel false tokens
        .ok (.list items, rest)
      else .error .malformed
    | .listStart :: rest =>
      if setting == .brackets then .error .malformed
      else do
        let (items, rest) ← readItems fuel true rest
        .ok (.list items, rest)
    | .mappingStart :: rest =>
      if setting == .brackets then .error .malformed
      else do
        let (entries, rest) ← readEntries fuel rest
        .ok (.mapping entries, rest)
    | _ => .error .malformed

/-- A node, or nothing at all if one of the tokens comes that end its place. -/
def readOptional (fuel : Nat) (setting : Setting) (ends tokens : List Token) :
    Except Problem (Node × List Token) :=
  match fuel with
  | 0 => .error .malformed
  | fuel + 1 => if comes ends tokens then .ok (empty, tokens) else readNode fuel setting tokens

def readEntryValue (fuel : Nat) (setting : Setting) (ends tokens : List Token) :
    Except Problem (Node × List Token) :=
  match fuel with
  | 0 => .error .malformed
  | fuel + 1 =>
    match tokens with
    | .value :: rest => readOptional fuel setting ends rest
    | _ => .ok (empty, tokens)

/-- The items of a list with dashes, which has an end of its own if it is indented. -/
def readItems (fuel : Nat) (indented : Bool) (tokens : List Token) :
    Except Problem (List Node × List Token) :=
  match fuel with
  | 0 => .error .malformed
  | fuel + 1 =>
    match tokens with
    | .dash :: rest => do
      let ends := if indented then [.dash, .blockEnd] else [.dash, .key, .value, .blockEnd]
      let (item, rest) ← readOptional fuel .block ends rest
      let (items, rest) ← readItems fuel indented rest
      .ok (item :: items, rest)
    | .blockEnd :: rest => .ok ([], if indented then rest else tokens)
    | _ => if indented then .error .malformed else .ok ([], tokens)

def readEntries (fuel : Nat) (tokens : List Token) :
    Except Problem (List (Node × Node) × List Token) :=
  match fuel with
  | 0 => .error .malformed
  | fuel + 1 =>
    match tokens with
    | .key :: rest => do
      let ends := [.key, .value, .blockEnd]
      let (key, rest) ← readOptional fuel .entry ends rest
      let (value, rest) ← readEntryValue fuel .entry ends rest
      let (entries, rest) ← readEntries fuel rest
      .ok ((key, value) :: entries, rest)
    | .blockEnd :: rest => .ok ([], rest)
    | _ => .error .malformed

/-- The items of a list in brackets.  An entry among them is a mapping of its own. -/
def readBracketItems (fuel : Nat) (first : Bool) (tokens : List Token) :
    Except Problem (List Node × List Token) :=
  match fuel with
  | 0 => .error .malformed
  | fuel + 1 =>
    match tokens, first with
    | .closeList :: rest, _ => .ok ([], rest)
    | .comma :: rest, false => readBracketItem fuel rest
    | _, true => readBracketItem fuel tokens
    | _, false => .error .malformed

/-- An item in brackets and those after it, or the closing bracket. -/
def readBracketItem (fuel : Nat) (tokens : List Token) :
    Except Problem (List Node × List Token) :=
  match fuel with
  | 0 => .error .malformed
  | fuel + 1 =>
    match tokens with
    | .closeList :: rest => .ok ([], rest)
    | .key :: rest => do
      let ends := [.comma, .closeList]
      let (key, rest) ← readOptional fuel .brackets (.value :: ends) rest
      let (value, rest) ← readEntryValue fuel .brackets ends rest
      let (items, rest) ← readBracketItems fuel false rest
      .ok (.mapping [(key, value)] :: items, rest)
    | _ => do
      let (item, rest) ← readNode fuel .brackets tokens
      let (items, rest) ← readBracketItems fuel false rest
      .ok (item :: items, rest)

/-- The entries of a mapping in brackets.  A node without a colon is a key without a value. -/
def readBracketEntries (fuel : Nat) (first : Bool) (tokens : List Token) :
    Except Problem (List (Node × Node) × List Token) :=
  match fuel with
  | 0 => .error .malformed
  | fuel + 1 =>
    match tokens, first with
    | .closeMapping :: rest, _ => .ok ([], rest)
    | .comma :: rest, false => readBracketEntry fuel rest
    | _, true => readBracketEntry fuel tokens
    | _, false => .error .malformed

/-- An entry in brackets and those after it, or the closing bracket. -/
def readBracketEntry (fuel : Nat) (tokens : List Token) :
    Except Problem (List (Node × Node) × List Token) :=
  match fuel with
  | 0 => .error .malformed
  | fuel + 1 =>
    match tokens with
    | .closeMapping :: rest => .ok ([], rest)
    | .key :: rest => do
      let ends := [.comma, .closeMapping]
      let (key, rest) ← readOptional fuel .brackets (.value :: ends) rest
      let (value, rest) ← readEntryValue fuel .brackets ends rest
      let (entries, rest) ← readBracketEntries fuel false rest
      .ok ((key, value) :: entries, rest)
    | _ => do
      let (key, rest) ← readNode fuel .brackets tokens
      let (entries, rest) ← readBracketEntries fuel false rest
      .ok ((key, empty) :: entries, rest)

end

/-- The node of a text with one document in it, or nothing if the text is empty. -/
def ofTokens? (tokens : List Token) : Except Problem (Option Node) :=
  let fuel := 4 * tokens.length + 4
  let finish (result : Except Problem (Node × List Token)) : Except Problem (Option Node) := do
    let (node, rest) ← result
    if (rest.dropWhile (· == .documentEnd)).isEmpty then .ok (some node) else .error .malformed
  match tokens with
  | [] => .ok none
  | .documentStart :: rest =>
    if rest.isEmpty || comes [.documentStart, .documentEnd] rest then finish (.ok (empty, rest))
    else finish (readNode fuel .block rest)
  | _ => finish (readNode fuel .block tokens)

end Node

end Stencil.Data.Yaml
