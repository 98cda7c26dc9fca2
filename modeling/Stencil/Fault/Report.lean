import Stencil.Fault.Domain

/-!
# Fault reports

A report describes a fault to people and to other programs: a stable code, a message, the domain,
the severity, and further data.
-/

namespace Stencil.Fault

open Stencil.Data

structure Report where
  code : String
  message : String
  domain : Domain
  severity : Severity
  retryable : Bool
  isPublic : Bool
  metadata : List (Key × Value)

/-- What a report is made from.  What is missing comes from the kind of fault, if it has it, and
then from the domain. -/
structure Draft where
  code : Option String := none
  message : Option String := none
  domain : Option Domain := none
  severity : Option Severity := none
  retryable : Option Bool := none
  isPublic : Bool := false
  metadata : List (Key × Value) := []

/-- The report of a draft of the given kind, unless the code, the message or the domain is given
neither by the draft nor by the kind. -/
def Draft.report? (draft kind : Draft) : Option Report := do
  let code ← draft.code.or kind.code
  let message ← draft.message.or kind.message
  let domain ← draft.domain.or kind.domain
  some
    { code, message, domain
      severity := draft.severity.getD domain.defaults.severity
      retryable := draft.retryable.getD domain.defaults.retryable
      isPublic := draft.isPublic
      metadata := draft.metadata }

def missingMessage (kindName : String) : String :=
  kindName ++ " missing required code, message, or domain"

namespace Report

def text (report : Report) : String :=
  "[" ++ report.code ++ "] " ++ report.message

def written (report : Report) : String :=
  "Fault(code=" ++ String.ofList (Text.quoted report.code.toList) ++ ", domain=" ++
    report.domain.name ++ ", severity=" ++ report.severity.name ++ ", public=" ++
    String.ofList (truthWord report.isPublic) ++ ")"

def record (report : Report) : Value :=
  .map
    [(.text "code", .text report.code), (.text "message", .text report.message),
     (.text "domain", .text report.domain.name),
     (.text "severity", .text report.severity.name),
     (.text "retryable", .bool report.retryable), (.text "public", .bool report.isPublic),
     (.text "metadata", .map report.metadata)]

end Report

end Stencil.Fault
