import Stencil.Data.Value

/-!
# Fault domains

A fault belongs to a domain, the area in which it arose.  Two domains are the same when their names
are; the description is for people.  Some domains carry defaults for the severity of their faults
and for whether a failed step may be tried again.
-/

namespace Stencil.Fault

inductive Severity where
  | info
  | warn
  | error
  | fatal
  deriving DecidableEq

def Severity.name : Severity → String
  | .info => "info"
  | .warn => "warn"
  | .error => "error"
  | .fatal => "fatal"

def Severity.ofName? (name : String) : Option Severity :=
  [Severity.info, .warn, .error, .fatal].find? fun severity => severity.name == name

structure Domain where
  name : String
  description : String := ""

namespace Domain

def same (a b : Domain) : Bool :=
  a.name == b.name

/-- A domain equals other data when its name is what the data shows. -/
def sameAsData (domain : Domain) (value : Data.Value) : Bool :=
  domain.name.toList == value.shown

def written (domain : Domain) : String :=
  "FaultDomain(name='" ++ domain.name ++ "')"

def config : Domain := ⟨"config", "Configuration errors"⟩

def files : Domain := ⟨"io", "I/O operations"⟩

def security : Domain := ⟨"security", "Security and sanitization"⟩

def templates : Domain := ⟨"templates", "Template compilation and rendering faults"⟩

end Domain

structure Defaults where
  severity : Severity
  retryable : Bool

def standardDefaults : List (Domain × Defaults) :=
  [(.config, ⟨.fatal, false⟩), (.files, ⟨.warn, true⟩), (.security, ⟨.error, false⟩)]

def Domain.defaults? (domain : Domain) : Option Defaults :=
  (standardDefaults.find? fun entry => entry.1.same domain).map Prod.snd

/-- The defaults of a domain; a domain without its own has plain errors that are final. -/
def Domain.defaults (domain : Domain) : Defaults :=
  domain.defaults?.getD ⟨.error, false⟩

end Stencil.Fault
