import Stencil.Script.Token

/-!
# Minifying a script

Comments and blanks disappear unless two tokens would run together or a line break ends a
statement.  A semicolon before a closing brace disappears too, unless it is the empty body of a
loop or a condition.
-/

namespace Stencil.Script

open Stencil.Text

def headerWords : List (List Char) :=
  ["for", "while", "if", "with"].map String.toList

def lastIs (inClass : Char → Bool) (text : List Char) : Bool :=
  match text.getLast? with
  | some c => inClass c
  | none => false

def firstIs (inClass : Char → Bool) (text : List Char) : Bool :=
  match text.head? with
  | some c => inClass c
  | none => false

def endsStatement (c : Char) : Bool :=
  isWordChar c || c == ')' || c == ']' || c == '"' || c == '\'' || c == '\x60'

def beginsStatement (c : Char) : Bool :=
  isWordChar c || c == '"' || c == '\'' || c == '\x60' || c == '!' || c == '~'

/-- The two tokens would make another one together. -/
def runsTogether (left right : List Char) : Bool :=
  (lastIs (fun c => c == '+' || c == '-' || c == '/') left && left.getLast? == right.head?) ||
    (lastIs (· == '/') left && firstIs (· == '*') right)

/-- What is written between two tokens in place of the gap. -/
def separator (left : List Char) (gap : Gap) (right : List Char) : List Char :=
  if gap = .closed then []
  else if lastIs isWordChar left && firstIs isWordChar right then
    if gap = .line then ['\n'] else [' ']
  else if gap = .line && lastIs endsStatement left && firstIs beginsStatement right then ['\n']
  else if runsTogether left right then [' ']
  else []

def Token.isPunct (token : Token) (c : Char) : Bool :=
  token == ⟨.punctuation, [c]⟩

/-- The open parentheses, each with the answer whether it begins a header, and whether the last
closed one did. -/
structure Brackets where
  opened : List Bool
  header : Bool

/-- The parentheses after one more token; `last` is the token before it. -/
def Brackets.after (brackets : Brackets) (last : Option Token) (token : Token) : Brackets :=
  if token.isPunct '(' then
    let header :=
      match last with
      | some ⟨.word, word⟩ => headerWords.contains word
      | _ => false
    { brackets with opened := header :: brackets.opened }
  else if token.isPunct ')' then
    ⟨brackets.opened.drop 1, brackets.opened.head?.getD false⟩
  else brackets

/-- The semicolon is dropped: a closing brace follows, and the semicolon is not the whole body of
a header. -/
def isIdle (brackets : Brackets) (last : Option Token) (token : Token)
    (rest : List (Gap × Token)) : Bool :=
  token.isPunct ';' &&
    (match rest with
      | (_, next) :: _ => next.isPunct '}'
      | [] => false) &&
    !(brackets.header && last.any (·.isPunct ')'))

/-- Write the tokens; `last` is the token before them. -/
def write (brackets : Brackets) (last : Option Token) : List (Gap × Token) → List Char
  | [] => []
  | (gap, token) :: rest =>
    let between :=
      match last with
      | some last => separator last.text gap token.text
      | none => []
    let written := if isIdle brackets last token rest then [] else token.text
    -- A dropped semicolon still stands between its neighbours.
    between ++ written ++ write (brackets.after last token) (some token) rest

def minify (script : List Char) : List Char :=
  trim (write ⟨[], false⟩ none (gapped .closed (pieces script)))

end Stencil.Script
