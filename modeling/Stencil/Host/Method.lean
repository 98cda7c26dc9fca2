import Stencil.Host.Member
import Stencil.Text.Capital

/-!
# Functions that belong to values

A call of such a function has a result; those that change a list or a mapping also say what it is
afterwards.
-/

namespace Stencil.Host

open Stencil.Data Stencil.Text

/-- The arguments of a call: those without names come first. -/
structure Arguments where
  values : List Value
  named : List (List Char × Value)

namespace Arguments

/-- The arguments by the names of the parameters.  Each one is given at most once; the first ones
may not be left out. -/
def bind (arguments : Arguments) (required : Nat) (parameters : List String) :
    Except Problem (List (Option Value)) :=
  let names := parameters.map String.toList
  let given := names.take arguments.values.length
  if names.length < arguments.values.length then .error .wrongType
  else if arguments.named.any fun entry => given.contains entry.1 || !names.contains entry.1 then
    .error .wrongType
  else
    let bound := arguments.values.map some ++
      (names.drop arguments.values.length).map (Table.get? arguments.named ·)
    if (bound.take required).all Option.isSome then .ok bound else .error .wrongType

end Arguments

/-- What a call leaves behind: its result and, if the value changed, what it is now. -/
structure Effect where
  result : Value
  changed : Option Value := none

namespace Method

def stripSet (argument : Option Value) : Except Problem (Char → Bool) :=
  match argument with
  | none | some .none => .ok isBlank
  | some (.text _ s) => .ok s.contains
  | _ => .error .wrongType

def stripStart (inSet : Char → Bool) (s : List Char) : List Char :=
  s.dropWhile inSet

def stripEnd (inSet : Char → Bool) (s : List Char) : List Char :=
  (s.reverse.dropWhile inSet).reverse

def textArgument : Option Value → Except Problem (List Char)
  | some (.text _ s) => .ok s
  | _ => .error .wrongType

def ofText (safe : Bool) (s : List Char) (name : String) (arguments : Arguments) :
    Except Problem Value :=
  match name with
  | "upper" => do
    let _ ← arguments.bind 0 []
    return .text safe (upperText s)
  | "lower" => do
    let _ ← arguments.bind 0 []
    return .text safe (lowerText s)
  | "capitalize" => do
    let _ ← arguments.bind 0 []
    return .text safe (Text.capitalize s)
  | "strip" => do
    let bound ← arguments.bind 0 ["chars"]
    let inSet ← stripSet bound.head?.join
    return .text safe (stripEnd inSet (stripStart inSet s))
  | "lstrip" => do
    let bound ← arguments.bind 0 ["chars"]
    return .text safe (stripStart (← stripSet bound.head?.join) s)
  | "rstrip" => do
    let bound ← arguments.bind 0 ["chars"]
    return .text safe (stripEnd (← stripSet bound.head?.join) s)
  | "startswith" => do
    let bound ← arguments.bind 1 ["prefix"]
    return .bool ((← textArgument bound.head?.join).isPrefixOf s)
  | "endswith" => do
    let bound ← arguments.bind 1 ["suffix"]
    return .bool ((← textArgument bound.head?.join).isSuffixOf s)
  | "count" => do
    let bound ← arguments.bind 1 ["sub"]
    let part ← textArgument bound.head?.join
    if part.isEmpty then return .int (s.length + 1)
    else return .int ((splitAll part s).length - 1 : Nat)
  | "find" => do
    let bound ← arguments.bind 1 ["sub"]
    match indexOf? (← textArgument bound.head?.join) s with
    | some position => return .int position
    | none => return .int (-1)
  | "replace" => do
    match ← arguments.bind 2 ["old", "new"] with
    | [some (.text _ old), some (.text newSafe new)] =>
      let new := if safe then Value.escaped newSafe new else new
      if old.isEmpty then
        return .text safe (new ++ s.flatMap fun c => c :: new)
      else return .text safe (replaceAll old new s)
    | _ => .error .wrongType
  | "split" => do
    match ← arguments.bind 0 ["sep"] with
    | [some (.text _ separator)] =>
      if separator.isEmpty then .error .wrongValue
      else return .list ((splitAll separator s).map (.text safe))
    | [none] | [some .none] => return .list ((fields s).map (.text safe))
    | _ => .error .wrongType
  | "join" => do
    match ← arguments.bind 1 ["iterable"] with
    | [some value] =>
      let parts ← (← value.items).mapM fun
        | .text partSafe part => .ok (if safe then Value.escaped partSafe part else part)
        | _ => .error Problem.wrongType
      return .text safe (List.intercalate s parts)
    | _ => .error .wrongType
  | _ => .error .wrongType

def entryItems (entries : List (Key × Value)) : List Value :=
  entries.map fun (key, value) => .tuple [.ofKey key, value]

def indexOfValue? (value : Value) (items : List Value) : Option Nat :=
  items.findIdx? (·.same value)

def ofList (items : List Value) (name : String) (arguments : Arguments) :
    Except Problem Effect :=
  let unchanged (value : Value) : Except Problem Effect := .ok ⟨value, none⟩
  let now (items : List Value) : Except Problem Effect := .ok ⟨.none, some (.list items)⟩
  if !arguments.named.isEmpty then .error .wrongType
  else
    match name, arguments.values with
    | "append", [value] => now (items ++ [value])
    | "clear", [] => now []
    | "extend", [value] => do now (items ++ (← value.items))
    | "insert", [.int place, value] =>
      let place := (Value.sliceBounds items.length (some place) none 1).1.toNat
      now (items.take place ++ value :: items.drop place)
    | "pop", arguments =>
      let place :=
        match arguments with
        | [] => some (-1)
        | [.int place] => some place
        | _ => none
      match place with
      | none => .error .wrongType
      | some place =>
        match Value.place? items.length place with
        | some place => .ok ⟨items.getD place .none, some (.list (items.eraseIdx place))⟩
        | none => .error .wrongMember
    | "remove", [value] =>
      match indexOfValue? value items with
      | some place => now (items.eraseIdx place)
      | none => .error .wrongValue
    | "reverse", [] => now items.reverse
    | "copy", [] => unchanged (.list items)
    | "count", [value] => unchanged (.int (items.countP (·.same value)))
    | "index", [value] =>
      match indexOfValue? value items with
      | some place => unchanged (.int place)
      | none => .error .wrongValue
    | _, _ => .error .wrongType

def ofMap (entries : List (Key × Value)) (name : String) (arguments : Arguments) :
    Except Problem Effect :=
  let unchanged (value : Value) : Except Problem Effect := .ok ⟨value, none⟩
  let get (key : Value) : Except Problem (Option Value) := do
    return (← key.key?).bind (Table.get? entries)
  if !arguments.named.isEmpty then .error .wrongType
  else
    match name, arguments.values with
    | "items", [] => unchanged (.view .entries (entryItems entries))
    | "keys", [] => unchanged (.view .keys (entries.map fun entry => .ofKey entry.1))
    | "values", [] => unchanged (.view .values (entries.map Prod.snd))
    | "copy", [] => unchanged (.map entries)
    | "get", [key] => do unchanged ((← get key).getD .none)
    | "get", [key, fallback] => do unchanged ((← get key).getD fallback)
    | "clear", [] => .ok ⟨.none, some (.map [])⟩
    | "pop", key :: fallback => do
      match ← get key, ← key.key?, fallback with
      | some value, some key, _ => return ⟨value, some (.map (Table.erase entries key))⟩
      | _, _, [fallback] => unchanged fallback
      | _, _, _ => .error .wrongMember
    | "setdefault", key :: fallback => do
      let fallback := fallback.headD .none
      match ← get key, ← key.key? with
      | some value, _ => unchanged value
      | none, some key => return ⟨fallback, some (.map (Table.put entries key fallback))⟩
      | none, none => .error .wrongType
    | "update", [.map others] =>
      .ok ⟨.none, some (.map
        (others.foldl (fun table entry => Table.put table entry.1 entry.2) entries))⟩
    | _, _ => .error .wrongType

def call (receiver : Value) (name : List Char) (arguments : Arguments) :
    Except Problem Effect :=
  let word := String.ofList name
  match receiver with
  | .text safe s => (ofText safe s word arguments).map (⟨·, none⟩)
  | .list items => ofList items word arguments
  | .map entries => ofMap entries word arguments
  | _ => .error .wrongType

end Method

end Stencil.Host
