import Stencil.Text.Search

/-!
# Arguments of a command

An argument that begins with a dash and goes on is an option.  A long one is a word, and may bring
its value after an equals sign; short ones are letters, and several may share a dash.  A value
that is not brought along is the next argument.  After two dashes everything is an operand.  No
argument holds a null character, since none can be passed to a process.
-/

namespace Stencil.Command

open Stencil.Text

structure OptionForm where
  word : List Char
  letter : Option Char := none
  takesValue : Bool := false

/-- What the arguments are found to be.  An option that takes no value has an empty one. -/
structure Arguments where
  options : List (List Char × List Char)
  operands : List (List Char)

namespace Arguments

def addOptions (options : List (List Char × List Char)) (arguments : Arguments) : Arguments :=
  { arguments with options := options ++ arguments.options }

def addOperand (operand : List Char) (arguments : Arguments) : Arguments :=
  { arguments with operands := operand :: arguments.operands }

def isOption (argument : List Char) : Bool :=
  argument.head? == some '-' && 1 < argument.length

/-- The options of one argument, and the word of the last one if its value is still to come. -/
structure Found where
  options : List (List Char × List Char)
  pending : Option (List Char)

/-- The options of letters that share a dash.  What follows one that takes a value is that
value. -/
def readLetters (forms : List OptionForm) : List Char → Option Found
  | [] => some ⟨[], none⟩
  | c :: rest => do
    let form ← forms.find? (·.letter == some c)
    if form.takesValue then
      if rest.isEmpty then some ⟨[], some form.word⟩
      else some ⟨[(form.word, rest)], none⟩
    else
      let found ← readLetters forms rest
      some { found with options := (form.word, []) :: found.options }

def readOption (forms : List OptionForm) (argument : List Char) : Option Found :=
  let (word, value) :=
    match splitFirst? ['='] argument with
    | some (word, value) => (word, some value)
    | none => (argument, none)
  match forms.find? (·.word == word), value with
  | some form, some value => if form.takesValue then some ⟨[(word, value)], none⟩ else none
  | some form, none => some (if form.takesValue then ⟨[], some word⟩ else ⟨[(word, [])], none⟩)
  | none, _ =>
    -- A word behind one dash is a run of letters.
    if ['-', '-'].isPrefixOf argument then none else readLetters forms (argument.drop 1)

/-- Read arguments by the options that are known.  Unless options may stand among operands, all is
an operand from the first one on.  An unknown option and a missing value are misuse. -/
def read? (forms : List OptionForm) (amongOperands : Bool) : List (List Char) → Option Arguments
  | [] => some ⟨[], []⟩
  | argument :: rest =>
    if argument == ['-', '-'] then some ⟨[], rest⟩
    else if isOption argument then
      match readOption forms argument with
      | none => none
      | some ⟨options, none⟩ => (read? forms amongOperands rest).map (addOptions options)
      | some ⟨options, some word⟩ =>
        match rest with
        | [] => none
        | value :: rest =>
          (read? forms amongOperands rest).map (addOptions (options ++ [(word, value)]))
    else if amongOperands then (read? forms amongOperands rest).map (addOperand argument)
    else some ⟨[], argument :: rest⟩

def has (arguments : Arguments) (word : String) : Bool :=
  arguments.options.any fun option => option.1 == word.toList

/-- The value of an option; of several, the last one counts. -/
def value? (arguments : Arguments) (word : String) : Option (List Char) :=
  (arguments.options.reverse.find? fun option => option.1 == word.toList).map Prod.snd

def values (arguments : Arguments) (word : String) : List (List Char) :=
  arguments.options.filterMap fun option =>
    if option.1 == word.toList then some option.2 else none

end Arguments

end Stencil.Command
