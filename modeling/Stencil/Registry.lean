import Stencil.Catalogue
import Stencil.Text.Blank

/-!
# Registries

A registry holds functions by name.  Registering a name again replaces the function; a registration
that fails leaves the registry as it was.
-/

namespace Stencil

open Stencil.Data

abbrev Registry (φ : Type) := List (List Char × φ)

namespace Registry

variable {φ : Type}

def add (registry : Registry φ) (catalogue : Catalogue φ) (name : List Char)
    (target : Target φ) : Except RegistrationFailure (Registry φ) := do
  let function ← catalogue.resolve name target
  .ok (Table.put registry name function)

/-- Register under a name that has to be a text and not blank. -/
def addNamed (registry : Registry φ) (catalogue : Catalogue φ) (name : Value)
    (target : Target φ) : Except RegistrationFailure (Registry φ) :=
  match name with
  | .text s =>
    if (Text.trim s.toList).isEmpty then
      .error (.invalid (.invalidRegistration name.quoted
        "block name must not be blank".toList))
    else registry.add catalogue s.toList target
  | _ =>
    .error (.invalid (.invalidRegistration name.quoted "block name must not be blank".toList))

def get? (registry : Registry φ) (name : List Char) : Option φ :=
  Table.get? registry name

def names (registry : Registry φ) : List (List Char) :=
  TemplateFault.sortTexts (Table.keys registry)

/-- Look up a name, which has to be registered. -/
def get (registry : Registry φ) (name : List Char) : Except TemplateFault φ :=
  match registry.get? name with
  | some function => .ok function
  | none => .error (.unknownRenderer name (Table.keys registry))

/-- Look up any data as a name.  Lists and mappings cannot be looked up at all. -/
def find (registry : Registry φ) (name : Value) : Except CallFailure (Option φ) :=
  match name with
  | .text s => .ok (registry.get? s.toList)
  | .list _ | .map _ => .error .wrongArguments
  | _ => .ok none

end Registry

end Stencil
