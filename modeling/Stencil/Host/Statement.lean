import Stencil.Host.Grammar

/-!
# Templates from tokens

The statements of host code are conditions and loops.  Each begins and ends in a tag of its own,
and what stands between its tags belongs to it.  Whatever else a tag of code says is an error, as
is a statement that is not ended.
-/

namespace Stencil.Host.Grammar

open Stencil.Host

/-- The units of fuel that a token can cost at most, on the way down to it and back. -/
def fuelPerToken : Nat := 24

def targetOf? : Expression → Option LoopTarget
  | .name name => some (.name name)
  | .tuple items => (targetsOf? items).map .parts
  | _ => none
where
  targetsOf? : List Expression → Option (List LoopTarget)
    | [] => some []
    | item :: rest => do
      let target ← targetOf? item
      let others ← targetsOf? rest
      return target :: others

/-- Read the primaries between commas that a loop assigns to. -/
def targetItems (fuel : Nat) (tokens : List Token) : Option (Reading (List Expression)) :=
  match fuel with
  | 0 => none
  | fuel + 1 =>
    if endsTuple tokens || startsWithWord "in" tokens then some ([], tokens)
    else do
      let (first, rest) ← expression fuel .primary tokens
      match afterSign? "," rest with
      | none => return ([first], rest)
      | some rest =>
        let (others, rest) ← targetItems fuel rest
        return (first :: others, rest)

def loopTarget (fuel : Nat) (tokens : List Token) : Option (Reading LoopTarget) := do
  let (items, rest) ← targetItems fuel tokens
  let expression ←
    match items with
    | [] => none
    | [item] =>
      let consumed := tokens.take (tokens.length - rest.length)
      match consumed.getLast? with
      | some (.sign ",") => some (.tuple [item])
      | _ => some item
    | items => some (.tuple items)
  let target ← targetOf? expression
  return (target, rest)

mutual

/-- Read nodes up to the end of the tokens or to a tag of code that begins with one of the given
words; that word is left in front. -/
def nodes (fuel : Nat) (endWords : List String) (tokens : List Token) :
    Option (Reading (List Node)) :=
  match fuel with
  | 0 => none
  | fuel + 1 =>
    match tokens with
    | [] => if endWords.isEmpty then some ([], []) else none
    | .data text :: rest => do
      let (others, rest) ← nodes fuel endWords rest
      return (.data text :: others, rest)
    | .openTag .print :: rest => do
      let (shown, rest) ← tuple fuel .choice false rest
      let rest ← afterClose? rest
      let (others, rest) ← nodes fuel endWords rest
      return (.print shown :: others, rest)
    | .openTag .code :: rest =>
      if endWords.any fun word => startsWithWord word rest then some ([], rest)
      else do
        let (node, rest) ← statement fuel rest
        let rest ← afterClose? rest
        let (others, rest) ← nodes fuel endWords rest
        return (node :: others, rest)
    | _ => none

def body (fuel : Nat) (endWords : List String) (tokens : List Token) :
    Option (Reading (List Node)) :=
  match fuel with
  | 0 => none
  | fuel + 1 => do
    let rest ← afterClose? ((afterSign? ":" tokens).getD tokens)
    nodes fuel endWords rest

def statement (fuel : Nat) (tokens : List Token) : Option (Reading Node) :=
  match fuel with
  | 0 => none
  | fuel + 1 =>
    match afterWord? "if" tokens with
    | some rest => branches fuel rest
    | none =>
      match afterWord? "for" tokens with
      | some rest => loop fuel rest
      | none => none

/-- Read a condition, its body and the branches after it. -/
def branches (fuel : Nat) (tokens : List Token) : Option (Reading Node) :=
  match fuel with
  | 0 => none
  | fuel + 1 => do
    let (test, rest) ← tuple fuel .either false tokens
    let (whenTrue, rest) ← body fuel ["elif", "else", "endif"] rest
    match afterWord? "elif" rest with
    | some rest =>
      let (next, rest) ← branches fuel rest
      return (.branch test whenTrue [next], rest)
    | none =>
      match afterWord? "else" rest with
      | some rest =>
        let (otherwise, rest) ← body fuel ["endif"] rest
        return (.branch test whenTrue otherwise, rest.drop 1)
      | none => return (.branch test whenTrue [], rest.drop 1)

def loop (fuel : Nat) (tokens : List Token) : Option (Reading Node) :=
  match fuel with
  | 0 => none
  | fuel + 1 => do
    let (target, rest) ← loopTarget fuel tokens
    let rest ← afterWord? "in" rest
    let (source, rest) ← loopSource fuel rest
    let (condition, rest) ←
      match afterWord? "if" rest with
      | some rest => do
        let (condition, rest) ← expression fuel .choice rest
        some (some condition, rest)
      | none => some (none, rest)
    let rest := (afterWord? "recursive" rest).getD rest
    let (each, rest) ← body fuel ["endfor", "else"] rest
    match afterWord? "else" rest with
    | some rest =>
      let (otherwise, rest) ← body fuel ["endfor"] rest
      return (.loop target source condition each otherwise, rest.drop 1)
    | none => return (.loop target source condition each [], rest.drop 1)

/-- Read what a loop runs over; the word `recursive` ends it like the end of the tag. -/
def loopSource (fuel : Nat) (tokens : List Token) : Option (Reading Expression) :=
  match fuel with
  | 0 => none
  | fuel + 1 =>
    if startsWithWord "recursive" tokens then none
    else do
      let (first, rest) ← expression fuel .either tokens
      match afterSign? "," rest with
      | none => return (first, rest)
      | some rest =>
        if startsWithWord "recursive" rest then return (.tuple [first], rest)
        else
          let (others, rest) ← tupleItems fuel .either rest
          return (.tuple (first :: others), rest)

end

def template? (tokens : List Token) : Option (List Node) :=
  match nodes (fuelPerToken * (tokens.length + 2)) [] tokens with
  | some (found, []) => some found
  | _ => none

end Stencil.Host.Grammar
