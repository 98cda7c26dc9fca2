import Stencil.Fault.Report

/-!
# Template faults

The faults of templates: what is wrong, where, and how it is worded.
-/

namespace Stencil

open Stencil.Data Stencil.Fault

inductive Defect where
  | unterminated
  | privateVariable (name : List Char)
  | unmatchedBranch
  | unclosed
  | branchAfterElse
  | loopForm
  | unmatchedBlock
  | crossedBlock (expected : List Char)
  | unclosedBlock
  | described (reason : List Char)
  deriving DecidableEq

def Defect.reason : Defect → List Char
  | .unterminated => "unterminated directive, missing '\x7d\x7d'".toList
  | .privateVariable name =>
    "private variable '$".toList ++ name ++ "' is not accessible".toList
  | .unmatchedBranch => "no matching opening directive".toList
  | .unclosed => "missing closing directive".toList
  | .branchAfterElse => "branch after 'else'".toList
  | .loopForm => "expected '<iterable> as $item'".toList
  | .unmatchedBlock => "no matching block opening".toList
  | .crossedBlock expected =>
    "expected '\x7b\x7b /block:".toList ++ expected ++ " \x7d\x7d'".toList
  | .unclosedBlock => "block is never closed".toList
  | .described reason => reason

inductive TemplateFault where
  | malformedDirective (directive : List Char) (defect : Defect) (position : Option Int)
  | unknownRenderer (name : List Char) (available : List (List Char))
  | unknownBlock (name : List Char) (position : Option Int)
  | invalidRegistration (name reason : List Char)
  | unsafeContent (segments : List (List Char))
  | templateNotFound (name : List Char) (searched : List (List Char))
  deriving DecidableEq

namespace TemplateFault

def code : TemplateFault → String
  | .malformedDirective .. => "MALFORMED_DIRECTIVE"
  | .unknownRenderer .. => "UNKNOWN_RENDERER"
  | .unknownBlock .. => "UNKNOWN_BLOCK"
  | .invalidRegistration .. => "RENDERER_INVALID"
  | .unsafeContent .. => "UNSAFE_CONTENT"
  | .templateNotFound .. => "TEMPLATE_NOT_FOUND"

def sortTexts (texts : List (List Char)) : List (List Char) :=
  texts.mergeSort fun a b => !(List.lex b a (fun x y => decide (x.toNat < y.toNat)))

def message : TemplateFault → List Char
  | .malformedDirective directive defect position =>
    let location :=
      match position with
      | some n => " at offset ".toList ++ intText n
      | none => []
    "Malformed directive '".toList ++ directive ++ ['\''] ++ location ++ ": ".toList ++
      defect.reason
  | .unknownRenderer name _ => "Renderer '".toList ++ name ++ "' does not exist".toList
  | .unknownBlock name _ => "Block '".toList ++ name ++ "' has no registered handler".toList
  | .invalidRegistration name reason =>
    "Cannot register '".toList ++ name ++ "': ".toList ++ reason
  | .unsafeContent segments =>
    "Removed ".toList ++ Decimal.digitsOf segments.length ++
      " embedded server-code segment(s)".toList
  | .templateNotFound name _ => "Template '".toList ++ name ++ "' not found".toList

def severity : TemplateFault → Severity
  | .unsafeContent _ => .warn
  | _ => .error

def textValue (text : List Char) : Value :=
  .text (String.ofList text)

def textsValue (texts : List (List Char)) : Value :=
  .list (texts.map textValue)

def positionValue : Option Int → Value
  | some n => .int n
  | none => .null

def shownSegment : Nat := 80

def metadata : TemplateFault → List (Key × Value)
  | .malformedDirective directive defect position =>
    [(.text "directive", textValue directive), (.text "reason", textValue defect.reason),
     (.text "position", positionValue position)]
  | .unknownRenderer name available =>
    [(.text "name", textValue name), (.text "available", textsValue (sortTexts available))]
  | .unknownBlock name position =>
    [(.text "name", textValue name), (.text "position", positionValue position)]
  | .invalidRegistration name reason =>
    [(.text "name", textValue name), (.text "reason", textValue reason)]
  | .unsafeContent segments =>
    [(.text "segments", textsValue (segments.map (·.take shownSegment)))]
  | .templateNotFound name searched =>
    [(.text "name", textValue name), (.text "search_paths", textsValue searched)]

def report (fault : TemplateFault) : Report :=
  { code := fault.code
    message := String.ofList fault.message
    domain := .templates
    severity := fault.severity
    retryable := false
    isPublic := false
    metadata := fault.metadata }

end TemplateFault

end Stencil
