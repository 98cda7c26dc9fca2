import Stencil.Directive.Expression
import Stencil.Directive.Stream

/-!
# Host code

The directives of a template become tags of the host language.  A template is read by recursive
descent: a passage of tokens goes on to the token that ends it, and a branch or a loop in it is
compiled by itself and hands back the tokens behind its end.  Branches and loops may be nested as
deeply as the tokens allow.
-/

namespace Stencil.Directive

open Stencil.Text

def interpolation (expression : List Char) : List Char :=
  "<?= ".toList ++ expression ++ " ?>".toList

def statement (words : List Char) : List Char :=
  "<?py ".toList ++ words ++ " ?>".toList

def call (function argument : List Char) : List Char :=
  function ++ '(' :: argument ++ [')']

structure LoopClause where
  iterable : List Char
  first : List Char
  second : Option (List Char)
  deriving DecidableEq

/-- A name with its sigil, beginning with an ASCII letter, and what follows it. -/
def sigilName? : List Char → Option (List Char × List Char)
  | '$' :: c :: rest =>
    if c.isAlpha then some (c :: rest.takeWhile isWord, rest.dropWhile isWord) else none
  | _ => none

def secondName? (text : List Char) : Option (Option (List Char)) :=
  if text.isEmpty then some none
  else
    match after? ['=', '>'] (skipBlanks text) with
    | none => none
    | some rest =>
      match sigilName? (skipBlanks rest) with
      | some (name, []) => some (some name)
      | _ => none

def boundNames? (text : List Char) : Option (List Char × Option (List Char)) := do
  if blankWidth text = 0 then none
  let rest ← after? ['a', 's'] (skipBlanks text)
  if blankWidth rest = 0 then none
  let (first, rest) ← sigilName? (skipBlanks rest)
  let second ← secondName? rest
  some (first, second)

/-- The clause that makes what the loop runs over as short as possible; `held` is what was passed
already, in reverse. -/
def loopClauseFrom? (held : List Char) : List Char → Option LoopClause
  | [] => none
  | c :: rest =>
    match boundNames? rest with
    | some (first, second) => some ⟨(c :: held).reverse, first, second⟩
    | none => loopClauseFrom? (c :: held) rest

def loopClause? (clause : List Char) : Option LoopClause :=
  loopClauseFrom? [] clause

def Token.fault (token : Token) (defect : Defect) : TemplateFault :=
  .malformedDirective token.text defect (some (token.start : Int))

/-- The fault of an expression that names a private variable.  Without a directive the expression
stands for itself. -/
def privateVariableFault (expression : List Char) (directive : Option (List Char))
    (position : Option Int) (name : List Char) : TemplateFault :=
  let shown :=
    match directive with
    | some text => if text.isEmpty then expression else text
    | none => expression
  .malformedDirective shown (.privateVariable name) position

/-- The expression of a statement, in which private variables are faults. -/
def statementExpression (token : Token) (expression : List Char) :
    Except TemplateFault (List Char) :=
  match hostExpression expression with
  | .ok written => .ok written
  | .error name => .error (token.fault (.privateVariable name))

/-- What prints a value; with a private variable in it the directive stays as it is. -/
def printed (token : Token) (expression : List Char) (wrap : List Char → List Char) :
    List Char :=
  match hostExpression expression with
  | .ok written => interpolation (wrap written)
  | .error _ => token.text

def loopHead (token : Token) (clause : List Char) : Except TemplateFault (List Char) :=
  match loopClause? clause with
  | none => .error (token.fault .loopForm)
  | some found => do
    let iterable ← statementExpression token found.iterable
    match found.second with
    | some second =>
      .ok ("for ".toList ++ found.first ++ ", ".toList ++ second ++ " in ".toList ++ iterable ++
        ".items()".toList)
    | none => .ok ("for ".toList ++ found.first ++ " in ".toList ++ iterable)

/-- The host code of a token that neither opens nor closes anything.  Only what prints something is
rewritten. -/
def Token.emitted (translator : List Char) (token : Token) : List Char :=
  match token.meaning with
  | .translated literal => interpolation (call translator literal)
  | .variable expression => printed token expression id
  | .translatedVariable expression => printed token expression (call translator)
  | _ => token.text

/-- A branch or a loop that is open, with the token that opened it. -/
inductive Construct where
  | branch (opener : Token)
  | loop (opener : Token)

def Construct.opener : Construct → Token
  | .branch opener => opener
  | .loop opener => opener

/-- Whether a token ends a passage of the construct: it divides the branch, or closes what is
open. -/
def Construct.endsAt : Construct → Meaning → Bool
  | .branch _, .elseBranch _ | .branch _, .otherwise | .branch _, .endBranch => true
  | .loop _, .endLoop => true
  | _, _ => false

/-- What the tokens are compiled to, as far as they belong to one passage: the parts that are
written, the token that ends the passage, and the tokens behind that one.  Only a passage outside of
all constructs may end with the tokens. -/
structure Passage (within : Option Construct) (tokens : List Token) where
  parts : List (List Char)
  terminator : Option Token
  rest : List Token
  closed : within.isSome → terminator.isSome
  suffix : terminator.toList ++ rest <:+ tokens

namespace Passage

/-- The passage with one more part at its beginning. -/
def after {within : Option Construct} {rest tokens : List Token} (passage : Passage within rest)
    (part : List Char) (hrest : rest <:+ tokens) : Passage within tokens :=
  { passage with
    parts := part :: passage.parts
    suffix := passage.suffix.trans hrest }

variable {construct : Construct} {tokens : List Token}

def closer (passage : Passage (some construct) tokens) : Token :=
  passage.terminator.get (passage.closed rfl)

theorem toList_terminator (passage : Passage (some construct) tokens) :
    passage.terminator.toList = [passage.closer] := by
  rw [closer, ← Option.toList_some, Option.some_get]

theorem closer_suffix (passage : Passage (some construct) tokens) :
    passage.closer :: passage.rest <:+ tokens := by
  rw [← List.singleton_append, ← toList_terminator]
  exact passage.suffix

theorem rest_suffix (passage : Passage (some construct) tokens) : passage.rest <:+ tokens :=
  (List.suffix_cons _ _).trans passage.closer_suffix

theorem length_rest_lt (passage : Passage (some construct) tokens) :
    passage.rest.length < tokens.length :=
  passage.closer_suffix.length_le

end Passage

/-- What a construct is compiled to up to its end, and the tokens behind it. -/
structure Closed (tokens : List Token) where
  parts : List (List Char)
  rest : List Token
  suffix : rest <:+ tokens

/-- How a division of a branch begins, and whether it is the last one. -/
def divisionHead (divider : Token) : Except TemplateFault (List Char × Bool) :=
  match divider.meaning with
  | .elseBranch condition => do
    let condition ← statementExpression divider condition
    .ok (statement ("elif ".toList ++ condition), false)
  | _ => .ok (statement "else".toList, true)

mutual

/-- Compile tokens up to the one that ends the passage. -/
def compilePassage (translator : List Char) (within : Option Construct) (tokens : List Token) :
    Except TemplateFault (Passage within tokens) :=
  match tokens with
  | [] =>
    match within with
    | none => .ok ⟨[], none, [], nofun, List.suffix_rfl⟩
    | some construct => .error (construct.opener.fault .unclosed)
  | token :: rest =>
    if within.any (·.endsAt token.meaning) then
      .ok ⟨[], some token, rest, fun _ => rfl, List.suffix_rfl⟩
    else
      match token.meaning with
      | .branch condition => do
        let inner ← compileBranch translator token condition rest
        let later ← compilePassage translator within inner.rest
        .ok (later.after inner.parts.flatten (inner.suffix.trans (List.suffix_cons token rest)))
      | .loop clause => do
        let inner ← compileLoop translator token clause rest
        let later ← compilePassage translator within inner.rest
        .ok (later.after inner.parts.flatten (inner.suffix.trans (List.suffix_cons token rest)))
      | .elseBranch _ | .otherwise | .endBranch | .endLoop =>
        .error (token.fault .unmatchedBranch)
      | _ => do
        let later ← compilePassage translator within rest
        .ok (later.after (token.emitted translator) (List.suffix_cons token rest))
termination_by 3 * tokens.length
decreasing_by
  all_goals rw [List.length_cons]
  · omega
  · have hinner := inner.suffix.length_le
    omega
  · omega
  · have hinner := inner.suffix.length_le
    omega
  · omega

/-- Compile what follows the opening token of a branch. -/
def compileBranch (translator : List Char) (opener : Token) (condition : List Char)
    (tokens : List Token) : Except TemplateFault (Closed tokens) := do
  let condition ← statementExpression opener condition
  let body ← compilePassage translator (some (.branch opener)) tokens
  let later ← compileDivisions translator opener false body.closer body.rest
  .ok ⟨statement ("if ".toList ++ condition) :: (body.parts ++ later.parts), later.rest,
    later.suffix.trans body.rest_suffix⟩
termination_by 3 * tokens.length + 2
decreasing_by
  · omega
  · have hbody := body.length_rest_lt
    omega

/-- Compile what follows a token that divides or closes a branch. -/
def compileDivisions (translator : List Char) (opener : Token) (elseSeen : Bool)
    (divider : Token) (tokens : List Token) : Except TemplateFault (Closed tokens) :=
  if divider.meaning = .endBranch then
    .ok ⟨[statement "endif".toList], tokens, List.suffix_rfl⟩
  else if elseSeen then .error (divider.fault .branchAfterElse)
  else do
    let (head, elseSeen) ← divisionHead divider
    let body ← compilePassage translator (some (.branch opener)) tokens
    let later ← compileDivisions translator opener elseSeen body.closer body.rest
    .ok ⟨head :: (body.parts ++ later.parts), later.rest, later.suffix.trans body.rest_suffix⟩
termination_by 3 * tokens.length + 1
decreasing_by
  · omega
  · have hbody := body.length_rest_lt
    omega

/-- Compile what follows the opening token of a loop. -/
def compileLoop (translator : List Char) (opener : Token) (clause : List Char)
    (tokens : List Token) : Except TemplateFault (Closed tokens) := do
  let head ← loopHead opener clause
  let body ← compilePassage translator (some (.loop opener)) tokens
  .ok ⟨statement head :: (body.parts ++ [statement "endfor".toList]), body.rest,
    body.rest_suffix⟩
termination_by 3 * tokens.length + 2

end

/-- The name under which view code finds the translator. -/
def translatorName : List Char :=
  "translator".toList

def hostCode (translator text : List Char) : Except TemplateFault (List Char) := do
  let found ← tokens text
  let whole ← compilePassage translator none found
  .ok whole.parts.flatten

end Stencil.Directive
