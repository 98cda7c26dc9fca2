import Stencil.Text.Blank

/-!
# Literals of a script

The width of a literal, counted from behind its opening mark.  A quoted string ends with its quote
or before the end of the line.  A template literal may hold substitutions, in which braces, strings
and template literals nest; the constructs that are open are kept on a stack, however many they are.
A regular expression ends with a slash outside a character class and carries its flags.
-/

namespace Stencil.Script

/-- Letters, digits, underscore, dollar sign, backslash and everything beyond ASCII. -/
def isWordChar (c : Char) : Bool :=
  c.isAlphanum || c == '_' || c == '$' || c == '\\' || 127 < c.toNat

def wordWidth (text : List Char) : Nat :=
  (text.takeWhile isWordChar).length

def quotedWidth (quote : Char) : List Char → Nat
  | [] => 0
  | '\\' :: rest =>
    match rest with
    | [] => 1
    | _ :: rest => quotedWidth quote rest + 2
  | c :: rest =>
    -- The line feed that breaks a string off is not taken with it.
    if c == quote then 1 else if c == '\n' then 0 else quotedWidth quote rest + 1

/-- A construct inside a template literal that is still open. -/
inductive Nest where
  | template
  | braces
  | quoted (quote : Char)
  deriving DecidableEq

/-- What one character does to the open constructs.  Escapes and the beginning of a substitution
take two characters and are not decided here. -/
def Nest.step (nest : Nest) (outer : List Nest) (c : Char) : List Nest :=
  match nest with
  | .template => if c == '\x60' then outer else .template :: outer
  | .braces =>
    if c == '"' || c == '\'' then .quoted c :: .braces :: outer
    else if c == '\x60' then .template :: .braces :: outer
    else if c == '{' then .braces :: .braces :: outer
    else if c == '}' then outer
    else .braces :: outer
  | .quoted quote => if c == quote || c == '\n' then outer else .quoted quote :: outer

def Nest.escapes : Nest → Bool
  | .braces => false
  | _ => true

/-- The width of the text up to the end of all open constructs, or to the end of the text. -/
def closeWidth : List Nest → List Char → Nat
  | [], _ => 0
  | _ :: _, [] => 0
  | nest :: outer, c :: rest =>
    match rest with
    -- The last character is taken, whatever is still open.
    | [] => 1
    | d :: rest' =>
      if c == '\\' && nest.escapes then closeWidth (nest :: outer) rest' + 2
      else if c == '$' && d == '{' && nest = .template then
        closeWidth (.braces :: nest :: outer) rest' + 2
      else closeWidth (nest.step outer c) (d :: rest') + 1
termination_by _ text => text.length

/-- The width of a template literal after its opening mark. -/
def templateWidth (text : List Char) : Nat :=
  closeWidth [.template] text

/-- The width of a substitution after its opening brace. -/
def substitutionWidth (text : List Char) : Nat :=
  closeWidth [.braces] text

/-- The width of a regular expression with its flags after its opening slash, if it ends on its
line.  `inBrackets` says that a character class is open. -/
def regexWidth? (inBrackets : Bool) : List Char → Option Nat
  | [] => none
  | '\\' :: rest =>
    match rest with
    | [] => none
    | _ :: rest => (regexWidth? inBrackets rest).map (· + 2)
  | c :: rest =>
    if c == '\n' then none
    else if c == '[' then (regexWidth? true rest).map (· + 1)
    else if c == ']' then (regexWidth? false rest).map (· + 1)
    else if c == '/' && !inBrackets then some (1 + wordWidth rest)
    else (regexWidth? inBrackets rest).map (· + 1)

end Stencil.Script
