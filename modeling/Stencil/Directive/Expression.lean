import Stencil.Text.Blank
import Stencil.Text.Numeric

/-!
# Directive expressions

An expression is written with sigils, arrows and symbols, and evaluated with plain names, dots and
words.  It is a sequence of lexemes; quoted strings stand for themselves, and each other lexeme has
its own way of being written.  A variable whose name begins with an underscore is private.
-/

namespace Stencil.Directive

open Stencil.Text

inductive WordOperator where
  | both
  | either
  | negation
  deriving DecidableEq

def WordOperator.symbol : WordOperator → List Char
  | .both => ['&', '&']
  | .either => ['|', '|']
  | .negation => ['!']

def WordOperator.word : WordOperator → List Char
  | .both => ['a', 'n', 'd']
  | .either => ['o', 'r']
  | .negation => ['n', 'o', 't']

/-- A consecutive part of an expression. -/
inductive Lexeme where
  | quoted (text : List Char)
  | sigil
  | identical
  | notIdentical
  | arrow
  | word (operator : WordOperator) (blanks : List Char)
  | char (c : Char)
  deriving DecidableEq

def Lexeme.source : Lexeme → List Char
  | .quoted text => text
  | .sigil => ['$']
  | .identical => ['=', '=', '=']
  | .notIdentical => ['!', '=', '=']
  | .arrow => ['-', '>']
  | .word operator blanks => operator.symbol ++ blanks
  | .char c => [c]

/-- The width of a quoted string after its opening quote; without an end it takes the rest. -/
def stringWidth (quote : Char) : List Char → Nat
  | [] => 0
  | '\\' :: rest =>
    match rest with
    | [] => 1
    | _ :: rest => stringWidth quote rest + 2
  | c :: rest => if c == quote then 1 else stringWidth quote rest + 1

def wordLexeme (operator : WordOperator) (rest : List Char) : Lexeme × List Char :=
  (.word operator (rest.takeWhile isBlank), rest.dropWhile isBlank)

/-- A lexeme that is neither a quoted string nor a sigil, and what follows it. -/
def symbolLexeme (c : Char) (rest : List Char) : Lexeme × List Char :=
  match c, rest with
  | '=', '=' :: '=' :: rest => (.identical, rest)
  | '!', '=' :: '=' :: rest => (.notIdentical, rest)
  | '-', '>' :: rest => (.arrow, rest)
  | '&', '&' :: rest => wordLexeme .both rest
  | '|', '|' :: rest => wordLexeme .either rest
  -- Part of an inequality, and no negation.
  | '!', '=' :: _ => (.char c, rest)
  | '!', _ => wordLexeme .negation rest
  | _, _ => (.char c, rest)

theorem length_wordLexeme (operator : WordOperator) (rest : List Char) :
    (wordLexeme operator rest).2.length ≤ rest.length :=
  (List.dropWhile_sublist isBlank).length_le

theorem length_symbolLexeme (c : Char) (rest : List Char) :
    (symbolLexeme c rest).2.length ≤ rest.length := by
  unfold symbolLexeme
  split <;>
    first
      | exact length_wordLexeme _ _
      | exact Nat.le_succ_of_le (length_wordLexeme _ _)
      | (simp only [List.length_cons]; omega)

/-- The lexemes of an expression, or the name of the first private variable in it. -/
def lexemes (expression : List Char) : Except (List Char) (List Lexeme) :=
  match expression with
  | [] => .ok []
  | c :: rest =>
    if c == '"' || c == '\'' then do
      let width := stringWidth c rest
      let later ← lexemes (rest.drop width)
      .ok (.quoted (c :: rest.take width) :: later)
    else if c == '$' && rest.head?.any (· == '_') then
      -- The sigil gives a private variable away; without it the name is not looked at.
      .error (rest.takeWhile isWord)
    else if c == '$' && rest.head?.any isLetter then do
      let later ← lexemes rest
      .ok (.sigil :: later)
    else do
      let later ← lexemes (symbolLexeme c rest).2
      .ok ((symbolLexeme c rest).1 :: later)
termination_by expression.length
decreasing_by
  · simp only [List.length_drop, List.length_cons]
    omega
  · simp
  · have := length_symbolLexeme c rest
    simp only [List.length_cons]
    omega

/-- What has been written before a lexeme, as far as a word after it is concerned. -/
inductive Before where
  | nothing
  | bracket
  | other
  deriving DecidableEq

/-- The blank that keeps a word apart from what stands before it. -/
def Before.gap : Before → List Char
  | .other => [' ']
  | _ => []

def startsWithWord : List Lexeme → Bool
  | .word .. :: _ => true
  | _ => false

/-- Write the lexemes.  A space directly before a word gives way to the word's own space. -/
def writeFrom (before : Before) : List Lexeme → List Char
  | [] => []
  | .quoted text :: rest => text ++ writeFrom .other rest
  | .sigil :: rest => writeFrom before rest
  | .identical :: rest => '=' :: '=' :: writeFrom .other rest
  | .notIdentical :: rest => '!' :: '=' :: writeFrom .other rest
  | .arrow :: rest => '.' :: writeFrom .other rest
  | .word operator _ :: rest =>
    before.gap ++ operator.word ++ (if startsWithWord rest then [] else [' ']) ++
      writeFrom .other rest
  | .char c :: rest =>
    if c == ' ' && startsWithWord rest then writeFrom .other rest
    else c :: writeFrom (if c == '(' || c == '[' then .bracket else .other) rest

/-- The expression as it is evaluated, or the name of a private variable in it. -/
def hostExpression (expression : List Char) : Except (List Char) (List Char) :=
  (lexemes expression).map fun found => trim (writeFrom .nothing found)

end Stencil.Directive
