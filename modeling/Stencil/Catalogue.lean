import Stencil.Fault.Template
import Stencil.Text.Search

/-!
# Named functions

A handler may be given as a function or by the path of one: a dotted module, a colon, and a dotted
attribute.  A catalogue holds the modules that can be named.  A path that leads to no function is
an invalid registration; an empty or relative module path is not even looked up.
-/

namespace Stencil

open Stencil.Text

/-- How the call of a registered function can fail: by its own refusal, or because of the number
or kind of its arguments. -/
inductive CallFailure where
  | refused
  | wrongArguments
  deriving DecidableEq

/-- Something that a catalogue holds, with what it contains itself. -/
inductive Item (φ : Type) where
  | mk (function : Option φ) (members : List (List Char × Item φ))

namespace Item

variable {φ : Type}

def function? : Item φ → Option φ
  | .mk function _ => function

def member? (item : Item φ) (name : List Char) : Option (Item φ) :=
  match item with
  | .mk _ members => Table.get? members name

def ofFunction (function : φ) : Item φ :=
  .mk (some function) []

def ofMembers (members : List (List Char × Item φ)) : Item φ :=
  .mk none members

end Item

/-- The modules that can be named, by their dotted paths. -/
abbrev Catalogue (φ : Type) := List (List Char × Item φ)

inductive RegistrationFailure where
  | invalid (fault : TemplateFault)
  | emptyModule
  | relativeModule
  deriving DecidableEq

/-- What is given as a handler. -/
inductive Target (φ : Type) where
  | function (function : φ)
  | data (value : Data.Value)

/-- The beginnings of a dotted path, from the shortest to the whole. -/
def dottedBeginnings (passed : List Char) : List (List Char) → List (List Char)
  | [] => []
  | part :: rest =>
    let here := if passed.isEmpty then part else passed ++ '.' :: part
    here :: dottedBeginnings here rest

namespace Catalogue

variable {φ : Type}

/-- The first part of a dotted path that the catalogue does not hold. -/
def firstMissing? (catalogue : Catalogue φ) (path : List Char) : Option (List Char) :=
  (dottedBeginnings [] (splitAll ['.'] path)).find? fun here => !Table.contains catalogue here

/-- A module is a package if it has a path, or if another module lies below it. -/
def isPackage (catalogue : Catalogue φ) (module : List Char) : Bool :=
  ((Table.get? catalogue module).bind (·.member? "__path__".toList)).isSome ||
    (Table.keys catalogue).any fun other => (module ++ ['.']).isPrefixOf other

/-- What is said of a module that is not there. -/
def missingReason (catalogue : Catalogue φ) (missing : List Char) : List Char :=
  let reason := "No module named ".toList ++ Text.quoted missing
  match splitLast? ['.'] missing with
  | some (outer, _) =>
    if catalogue.isPackage outer then reason
    else reason ++ "; ".toList ++ Text.quoted outer ++ " is not a package".toList
  | none => reason

/-- Follow the names of an attribute path; a name that is not there is reported. -/
def follow (item : Item φ) : List (List Char) → Except (List Char) (Item φ)
  | [] => .ok item
  | name :: rest =>
    match item.member? name with
    | some member => follow member rest
    | none => .error name

/-- The reason for which a target is no handler, when it names nothing at all. -/
def unnamedReason (value : Data.Value) : List Char :=
  "expected callable or 'module:attribute', got ".toList ++ value.quoted

/-- The function at an attribute path of a module; `shown` is the whole path. -/
def functionAt (name shown members : List Char) (item : Item φ) :
    Except RegistrationFailure φ :=
  match follow item (splitAll ['.'] members) with
  | .error part =>
    .error (.invalid (.invalidRegistration name
      (['\''] ++ shown ++ "' has no attribute '".toList ++ part ++ ['\''])))
  | .ok found =>
    match found.function? with
    | some function => .ok function
    | none =>
      .error (.invalid (.invalidRegistration name
        (['\''] ++ shown ++ "' is not callable".toList)))

def named (catalogue : Catalogue φ) (name path : List Char) : Except RegistrationFailure φ :=
  match splitLast? [':'] path with
  | none =>
    .error (.invalid (.invalidRegistration name
      (unnamedReason (.text (String.ofList path)))))
  | some (module, members) =>
    if module.isEmpty then .error .emptyModule
    else if module.head? == some '.' then .error .relativeModule
    else
      -- The packages on the way have to be there before the module itself.
      match catalogue.firstMissing? module, Table.get? catalogue module with
      | none, some item => functionAt name path members item
      | missing, _ =>
        .error (.invalid (.invalidRegistration name
          ("cannot import '".toList ++ module ++ "': ".toList ++
            catalogue.missingReason (missing.getD module))))

def resolve (catalogue : Catalogue φ) (name : List Char) (target : Target φ) :
    Except RegistrationFailure φ :=
  match target with
  | .function function => .ok function
  | .data (.text path) => catalogue.named name path.toList
  | .data value => .error (.invalid (.invalidRegistration name (unnamedReason value)))

end Catalogue

end Stencil
