import Stencil.Fault.Template
import Stencil.Text.Blank
import Stencil.Text.Numeric
import Stencil.Text.Search

/-!
# Unused rules

The classes that a page uses stand in its class attributes.  A rule whose selector names classes,
but none that is used, is removed with all that it contains.
-/

namespace Stencil.Sheet

open Stencil.Text

/-- The value of the class attribute that begins a text, and what comes behind it. -/
def classAttribute? (text : List Char) : Option (List Char × List Char) := do
  let rest ← after? "class=".toList text
  match rest with
  | '"' :: rest => splitFirst? ['"'] rest
  | '\'' :: rest => splitFirst? ['\''] rest
  | _ => none

/-- The values of the class attributes; `inWord` tells whether a word character comes before. -/
def classValues (inWord : Bool) (text : List Char) : List (List Char) :=
  match text with
  | [] => []
  | c :: rest =>
    match if inWord then none else classAttribute? (c :: rest) with
    | none => classValues (isWord c) rest
    | some (value, behind) =>
      -- This is `behind`, written so that the text can be seen to get shorter.
      value :: classValues false (rest.drop (rest.length - behind.length))
termination_by text.length

def usedClasses (page : List Char) : List (List Char) :=
  let names := (classValues false page).flatMap fields
  TemplateFault.sortTexts ((names.map ('.' :: ·)).eraseDups)

def startsClass (c : Char) : Bool :=
  c == '_' || c.isAlpha

def continuesClass (c : Char) : Bool :=
  c == '-' || isWord c

def className? (text : List Char) : Option (List Char) :=
  let (hyphen, rest) :=
    match text with
    | '-' :: rest => (['-'], rest)
    | _ => ([], text)
  match rest with
  | c :: _ => if startsClass c then some (hyphen ++ rest.takeWhile continuesClass) else none
  | [] => none

/-- The classes that a selector names, with their points. -/
def selectorClasses (selector : List Char) : List (List Char) :=
  match selector with
  | [] => []
  | c :: rest =>
    if c == '.' then
      match className? rest with
      | some name => ('.' :: name) :: selectorClasses (rest.drop name.length)
      | none => selectorClasses rest
    else selectorClasses rest
termination_by selector.length
decreasing_by all_goals simp only [List.length_cons, List.length_drop]; omega

/-- A rule is kept if it is no class rule at all or if one of its classes is used. -/
def keeps (used : List (List Char)) (selector : List Char) : Bool :=
  let selector := trim selector
  let names := selectorClasses selector
  selector.head? == some '@' || contains ":root".toList selector || names.isEmpty ||
    names.any used.contains

/-- What stands before a selector, through the last semicolon, and the selector. -/
def splitSelector (text : List Char) : List Char × List Char :=
  match splitLast? [';'] text with
  | some (before, selector) => (before ++ [';'], selector)
  | none => ([], text)

/-- Walk along a sheet.  `held` is what has been read since the last brace, in reverse, and
`skipped` counts the braces that are open in a rule that is removed. -/
def pruneFrom (used : List (List Char)) (held : List Char) :
    Nat → List Char → List Char
  | 0, [] => held.reverse
  | _ + 1, [] => []
  | skipped + 1, c :: rest =>
    if c == '{' then pruneFrom used [] (skipped + 2) rest
    -- The brace that closes a removed rule goes with it.
    else if c == '}' then pruneFrom used [] skipped rest
    else pruneFrom used [] (skipped + 1) rest
  | 0, c :: rest =>
    if c == '{' then
      let (before, selector) := splitSelector held.reverse
      if keeps used selector then before ++ selector ++ '{' :: pruneFrom used [] 0 rest
      else before ++ pruneFrom used [] 1 rest
    else if c == '}' then held.reverse ++ '}' :: pruneFrom used [] 0 rest
    else pruneFrom used (c :: held) 0 rest

/-- At its end a walk gives back what it holds. -/
theorem pruneFrom_nil (used : List (List Char)) (held : List Char) :
    pruneFrom used held 0 [] = held.reverse := by
  simp only [pruneFrom]

/-- The sheet without the rules whose classes are all unused. -/
def prune (used : List (List Char)) (sheet : List Char) : List Char :=
  pruneFrom used [] 0 sheet

end Stencil.Sheet
