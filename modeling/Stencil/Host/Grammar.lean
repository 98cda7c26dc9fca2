import Stencil.Host.Expression

/-!
# The grammar of host code

Each reader takes what it can from the front of the tokens and answers with the rest.  The readers
call each other, and every call spends one unit of fuel; the fuel that `template?` starts with is
enough for any nesting that the tokens can hold.
-/

namespace Stencil.Host.Grammar

open Stencil.Host

def afterWord? (word : String) : List Token → Option (List Token)
  | .word name :: rest => if name == word.toList then some rest else none
  | _ => none

def afterSign? (sign : String) : List Token → Option (List Token)
  | .sign s :: rest => if s == sign then some rest else none
  | _ => none

def startsWithWord (word : String) (tokens : List Token) : Bool :=
  (afterWord? word tokens).isSome

def startsWithSign (sign : String) (tokens : List Token) : Bool :=
  (afterSign? sign tokens).isSome

def afterClose? : List Token → Option (List Token)
  | .closeTag _ :: rest => some rest
  | _ => none

/-- Names that mean a value. -/
def literalWord? (name : List Char) : Option Literal :=
  if name == "true".toList || name == "True".toList then some (.bool true)
  else if name == "false".toList || name == "False".toList then some (.bool false)
  else if name == "none".toList || name == "None".toList then some .none
  else none

def relation? : List Token → Option (Relation × List Token)
  | .sign "==" :: rest => some (.equal, rest)
  | .sign "!=" :: rest => some (.unequal, rest)
  | .sign "<" :: rest => some (.less, rest)
  | .sign "<=" :: rest => some (.atMost, rest)
  | .sign ">" :: rest => some (.greater, rest)
  | .sign ">=" :: rest => some (.atLeast, rest)
  | tokens =>
    match afterWord? "in" tokens with
    | some rest => some (.isIn, rest)
    | none =>
      match (afterWord? "not" tokens).bind (afterWord? "in") with
      | some rest => some (.isNotIn, rest)
      | none => none

def sum? : List Token → Option (Operator × List Token)
  | .sign "+" :: rest => some (.add, rest)
  | .sign "-" :: rest => some (.subtract, rest)
  | _ => none

def product? : List Token → Option (Operator × List Token)
  | .sign "*" :: rest => some (.multiply, rest)
  | .sign "/" :: rest => some (.divide, rest)
  | .sign "//" :: rest => some (.divideFloor, rest)
  | .sign "%" :: rest => some (.modulo, rest)
  | _ => none

def power? : List Token → Option (Operator × List Token)
  | .sign "**" :: rest => some (.power, rest)
  | _ => none

/-- Adjacent quoted texts are one text. -/
def adjacentTexts : List Token → List Char × List Token
  | .text s :: rest =>
    let (more, rest) := adjacentTexts rest
    (s ++ more, rest)
  | tokens => ([], tokens)

/-- A tuple ends at the end of its tag or at a closing parenthesis. -/
def endsTuple : List Token → Bool
  | .closeTag _ :: _ => true
  | .sign ")" :: _ => true
  | _ => false

/-- The argument of a test may stand without parentheses, unless it would begin with one of the
words that go on after the test. -/
def beginsTestArgument : List Token → Bool
  | .word name :: _ =>
    !(name == "else".toList || name == "or".toList || name == "and".toList)
  | .text _ :: _ | .integer _ :: _ | .decimal _ :: _ => true
  | .sign "(" :: _ | .sign "[" :: _ | .sign "\x7b" :: _ => true
  | _ => false

def dottedName : List Char → List Token → Option (List Char × List Token)
  | name, .sign "." :: .word part :: rest => dottedName (name ++ '.' :: part) rest
  | _, .sign "." :: _ => none
  | name, tokens => some (name, tokens)

/-- The expressions of the grammar, by what reads them. -/
inductive Form where
  | choice
  | either
  | both
  | negation
  | comparison
  | sum
  | joined
  | product
  | power
  | signed
  | signedPlain
  | primary

/-- What was read and the tokens behind it. -/
abbrev Reading (α : Type) := α × List Token

/-- What may follow the names of the arguments read so far. -/
structure Arguments where
  values : List Expression
  names : List (List Char)

mutual

def expression (fuel : Nat) (form : Form) (tokens : List Token) : Option (Reading Expression) :=
  match fuel with
  | 0 => none
  | fuel + 1 =>
    match form with
    | .choice => do
      let (first, rest) ← expression fuel .either tokens
      choices fuel first rest
    | .either => do
      let (first, rest) ← expression fuel .both tokens
      alternatives fuel first rest
    | .both => do
      let (first, rest) ← expression fuel .negation tokens
      conjuncts fuel first rest
    | .negation =>
      match afterWord? "not" tokens with
      | some rest => do
        let (operand, rest) ← expression fuel .negation rest
        return (.negation operand, rest)
      | none => expression fuel .comparison tokens
    | .comparison => do
      let (first, rest) ← expression fuel .sum tokens
      let (compared, rest) ← comparisons fuel rest
      if compared.isEmpty then return (first, rest)
      else return (.comparison first (compared.map Prod.fst) (compared.map Prod.snd), rest)
    | .sum => do
      let (first, rest) ← expression fuel .joined tokens
      operations fuel sum? .joined first rest
    | .joined => do
      let (first, rest) ← expression fuel .product tokens
      let (others, rest) ← joinedParts fuel rest
      if others.isEmpty then return (first, rest)
      else return (.joined (first :: others), rest)
    | .product => do
      let (first, rest) ← expression fuel .power tokens
      operations fuel product? .power first rest
    | .power => do
      let (first, rest) ← expression fuel .signed tokens
      operations fuel power? .signed first rest
    | .signed => do
      let (operand, rest) ← expression fuel .signedPlain tokens
      filtered fuel operand rest
    | .signedPlain =>
      match tokens with
      | .sign "-" :: rest => do
        let (operand, rest) ← expression fuel .signedPlain rest
        accessed fuel (.negative operand) rest
      | .sign "+" :: rest => do
        let (operand, rest) ← expression fuel .signedPlain rest
        accessed fuel (.positive operand) rest
      | _ => do
        let (operand, rest) ← expression fuel .primary tokens
        accessed fuel operand rest
    | .primary =>
      match tokens with
      | .word name :: rest =>
        match literalWord? name with
        | some value => some (.literal value, rest)
        | none => some (.name name, rest)
      | .text s :: rest =>
        let (more, rest) := adjacentTexts rest
        some (.literal (.text (s ++ more)), rest)
      | .integer n :: rest => some (.literal (.int n), rest)
      | .decimal x :: rest => some (.literal (.float x), rest)
      | .sign "(" :: rest => do
        let (inner, rest) ← tuple fuel .choice true rest
        let rest ← afterSign? ")" rest
        return (inner, rest)
      | .sign "[" :: rest => do
        let (items, rest) ← listItems fuel rest
        return (.list items, rest)
      | .sign "\x7b" :: rest => do
        let (entries, rest) ← mappingItems fuel rest
        return (.mapping (entries.map Prod.fst) (entries.map Prod.snd), rest)
      | _ => none

def choices (fuel : Nat) (first : Expression) (tokens : List Token) : Option (Reading Expression) :=
  match fuel with
  | 0 => none
  | fuel + 1 =>
    match afterWord? "if" tokens with
    | none => some (first, tokens)
    | some rest => do
      let (test, rest) ← expression fuel .either rest
      match afterWord? "else" rest with
      | some rest =>
        let (otherwise, rest) ← expression fuel .choice rest
        choices fuel (.choiceElse test first otherwise) rest
      | none => choices fuel (.choice test first) rest

def alternatives (fuel : Nat) (first : Expression) (tokens : List Token) :
    Option (Reading Expression) :=
  match fuel with
  | 0 => none
  | fuel + 1 =>
    match afterWord? "or" tokens with
    | none => some (first, tokens)
    | some rest => do
      let (next, rest) ← expression fuel .both rest
      alternatives fuel (.either first next) rest

def conjuncts (fuel : Nat) (first : Expression) (tokens : List Token) :
    Option (Reading Expression) :=
  match fuel with
  | 0 => none
  | fuel + 1 =>
    match afterWord? "and" tokens with
    | none => some (first, tokens)
    | some rest => do
      let (next, rest) ← expression fuel .negation rest
      conjuncts fuel (.both first next) rest

def comparisons (fuel : Nat) (tokens : List Token) :
    Option (Reading (List (Relation × Expression))) :=
  match fuel with
  | 0 => none
  | fuel + 1 =>
    match relation? tokens with
    | none => some ([], tokens)
    | some (relation, rest) => do
      let (other, rest) ← expression fuel .sum rest
      let (more, rest) ← comparisons fuel rest
      return ((relation, other) :: more, rest)

/-- Read the operations of one rank that follow an expression, from left to right. -/
def operations (fuel : Nat) (operator? : List Token → Option (Operator × List Token))
    (operand : Form) (first : Expression) (tokens : List Token) : Option (Reading Expression) :=
  match fuel with
  | 0 => none
  | fuel + 1 =>
    match operator? tokens with
    | none => some (first, tokens)
    | some (operator, rest) => do
      let (next, rest) ← expression fuel operand rest
      operations fuel operator? operand (.arithmetic operator first next) rest

def joinedParts (fuel : Nat) (tokens : List Token) : Option (Reading (List Expression)) :=
  match fuel with
  | 0 => none
  | fuel + 1 =>
    match afterSign? "~" tokens with
    | none => some ([], tokens)
    | some rest => do
      let (part, rest) ← expression fuel .product rest
      let (more, rest) ← joinedParts fuel rest
      return (part :: more, rest)

def accessed (fuel : Nat) (object : Expression) (tokens : List Token) :
    Option (Reading Expression) :=
  match fuel with
  | 0 => none
  | fuel + 1 =>
    match tokens with
    | .sign "." :: .word name :: rest => accessed fuel (.member object name) rest
    | .sign "." :: .integer n :: rest => accessed fuel (.item object (.literal (.int n))) rest
    | .sign "." :: _ => none
    | .sign "[" :: rest => do
      let (indices, rest) ← subscripts fuel rest
      match indices with
      | [(none, index)] => accessed fuel (.item object index) rest
      | [(some (start, stop), step)] => accessed fuel (.slice object start stop step) rest
      | _ =>
        if indices.all fun index => index.1.isNone then
          accessed fuel (.item object (.tuple (indices.map Prod.snd))) rest
        else none
    | .sign "(" :: rest => do
      let (arguments, rest) ← callArguments fuel rest
      accessed fuel (.call object arguments.values arguments.names) rest
    | _ => some (object, tokens)

def filtered (fuel : Nat) (subject : Expression) (tokens : List Token) :
    Option (Reading Expression) :=
  match fuel with
  | 0 => none
  | fuel + 1 =>
    match tokens with
    | .sign "|" :: .word first :: rest => do
      let (name, rest) ← dottedName first rest
      match afterSign? "(" rest with
      | some rest =>
        let (arguments, rest) ← callArguments fuel rest
        filtered fuel (.filter name (subject :: arguments.values) arguments.names) rest
      | none => filtered fuel (.filter name [subject] []) rest
    | .sign "|" :: _ => none
    | .sign "(" :: rest => do
      let (arguments, rest) ← callArguments fuel rest
      filtered fuel (.call subject arguments.values arguments.names) rest
    | _ =>
      match afterWord? "is" tokens with
      | none => some (subject, tokens)
      | some rest => do
        let negated := startsWithWord "not" rest
        let (test, rest) ← testOf fuel subject (if negated then rest.drop 1 else rest)
        filtered fuel (if negated then .negation test else test) rest

def testOf (fuel : Nat) (subject : Expression) (tokens : List Token) :
    Option (Reading Expression) :=
  match fuel with
  | 0 => none
  | fuel + 1 =>
    match tokens with
    | .word first :: rest => do
      let (name, rest) ← dottedName first rest
      match afterSign? "(" rest with
      | some rest =>
        let (arguments, rest) ← callArguments fuel rest
        return (.test name (subject :: arguments.values) arguments.names, rest)
      | none =>
        if beginsTestArgument rest then
          if startsWithWord "is" rest then none
          else
            let (operand, rest) ← expression fuel .primary rest
            let (argument, rest) ← accessed fuel operand rest
            return (.test name [subject, argument] [], rest)
        else return (.test name [subject] [], rest)
    | _ => none

/-- Read expressions separated by commas: one alone is itself, several are a tuple, and so is one
with a comma behind it.  Only parentheses may hold none. -/
def tuple (fuel : Nat) (form : Form) (parenthesised : Bool) (tokens : List Token) :
    Option (Reading Expression) :=
  match fuel with
  | 0 => none
  | fuel + 1 =>
    if endsTuple tokens then if parenthesised then some (.tuple [], tokens) else none
    else do
      let (first, rest) ← expression fuel form tokens
      match afterSign? "," rest with
      | none => return (first, rest)
      | some rest =>
        let (others, rest) ← tupleItems fuel form rest
        return (.tuple (first :: others), rest)

def tupleItems (fuel : Nat) (form : Form) (tokens : List Token) :
    Option (Reading (List Expression)) :=
  match fuel with
  | 0 => none
  | fuel + 1 =>
    if endsTuple tokens then some ([], tokens)
    else do
      let (first, rest) ← expression fuel form tokens
      match afterSign? "," rest with
      | none => return ([first], rest)
      | some rest =>
        let (others, rest) ← tupleItems fuel form rest
        return (first :: others, rest)

def listItems (fuel : Nat) (tokens : List Token) : Option (Reading (List Expression)) :=
  match fuel with
  | 0 => none
  | fuel + 1 =>
    match afterSign? "]" tokens with
    | some rest => some ([], rest)
    | none => do
      let (first, rest) ← expression fuel .choice tokens
      match afterSign? "," rest with
      | some rest =>
        let (others, rest) ← listItems fuel rest
        return (first :: others, rest)
      | none =>
        let rest ← afterSign? "]" rest
        return ([first], rest)

def mappingItems (fuel : Nat) (tokens : List Token) :
    Option (Reading (List (Expression × Expression))) :=
  match fuel with
  | 0 => none
  | fuel + 1 =>
    match afterSign? "\x7d" tokens with
    | some rest => some ([], rest)
    | none => do
      let (key, rest) ← expression fuel .choice tokens
      let rest ← afterSign? ":" rest
      let (value, rest) ← expression fuel .choice rest
      match afterSign? "," rest with
      | some rest =>
        let (others, rest) ← mappingItems fuel rest
        return ((key, value) :: others, rest)
      | none =>
        let rest ← afterSign? "\x7d" rest
        return ([(key, value)], rest)

/-- Read the indices and slices between brackets, and the closing one.  A slice has its ends in
front of its step. -/
def subscripts (fuel : Nat) (tokens : List Token) :
    Option (Reading (List (Option (Expression × Expression) × Expression))) :=
  match fuel with
  | 0 => none
  | fuel + 1 =>
    match afterSign? "]" tokens with
    | some rest => some ([], rest)
    | none => do
      let (start, rest) ← sliceEnd fuel tokens
      let (first, rest) ←
        match afterSign? ":" rest with
        | none => if startsWithSign "," tokens then none else some ((none, start), rest)
        | some rest => do
          let (stop, rest) ← sliceEnd fuel rest
          match afterSign? ":" rest with
          | none => some ((some (start, stop), .literal .none), rest)
          | some rest =>
            let (step, rest) ← sliceEnd fuel rest
            some ((some (start, stop), step), rest)
      match afterSign? "]" rest with
      | some rest => return ([first], rest)
      | none =>
        let rest ← afterSign? "," rest
        let (others, rest) ← subscriptsAfterComma fuel rest
        return (first :: others, rest)

/-- Read on after the comma between two indices. -/
def subscriptsAfterComma (fuel : Nat) (tokens : List Token) :
    Option (Reading (List (Option (Expression × Expression) × Expression))) :=
  match fuel with
  | 0 => none
  | fuel + 1 => if startsWithSign "]" tokens then none else subscripts fuel tokens

def sliceEnd (fuel : Nat) (tokens : List Token) : Option (Reading Expression) :=
  match fuel with
  | 0 => none
  | fuel + 1 =>
    if startsWithSign ":" tokens || startsWithSign "]" tokens || startsWithSign "," tokens then
      some (.literal .none, tokens)
    else expression fuel .choice tokens

def callArguments (fuel : Nat) (tokens : List Token) : Option (Reading Arguments) :=
  match fuel with
  | 0 => none
  | fuel + 1 =>
    match afterSign? ")" tokens with
    | some rest => some (⟨[], []⟩, rest)
    | none => do
      let (name?, value, rest) ←
        match tokens with
        | .word name :: .sign "=" :: rest => do
          let (value, rest) ← expression fuel .choice rest
          some (some name, value, rest)
        | _ => do
          let (value, rest) ← expression fuel .choice tokens
          some (none, value, rest)
      let (others, rest) ←
        match afterSign? "," rest with
        | some rest => callArguments fuel rest
        | none => do
          let rest ← afterSign? ")" rest
          some (⟨[], []⟩, rest)
      match name? with
      | some name =>
        if others.names.length == others.values.length then
          return (⟨value :: others.values, name :: others.names⟩, rest)
        else none
      | none => return (⟨value :: others.values, others.names⟩, rest)

end

end Stencil.Host.Grammar
