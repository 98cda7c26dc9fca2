import Stencil.Host.Operation
import Stencil.Text.Blank

/-!
# Members and items of values

A member is first looked for among what every value of its kind has, and then among the entries of
the value; an item the other way around.  A sandbox hides the members whose names begin with an
underscore, and a sandbox of unchangeable values also those that would change their value.
-/

namespace Stencil.Host

open Stencil.Data

structure Guard where
  /-- An absence is strict. -/
  strict : Bool
  /-- Members whose names begin with an underscore are hidden. -/
  sandboxed : Bool
  /-- Members that change their value are hidden. -/
  immutable : Bool

namespace Value

def textMembers : List String :=
  ["capitalize", "casefold", "center", "count", "encode", "endswith", "expandtabs", "find",
   "format", "format_map", "index", "isalnum", "isalpha", "isascii", "isdecimal", "isdigit",
   "isidentifier", "islower", "isnumeric", "isprintable", "isspace", "istitle", "isupper", "join",
   "ljust", "lower", "lstrip", "maketrans", "partition", "removeprefix", "removesuffix", "replace",
   "rfind", "rindex", "rjust", "rpartition", "rsplit", "rstrip", "split", "splitlines",
   "startswith", "strip", "swapcase", "title", "translate", "upper", "zfill"]

def safeTextMembers : List String :=
  ["escape", "striptags", "unescape"]

def listChangers : List String :=
  ["append", "clear", "extend", "insert", "pop", "remove", "reverse", "sort"]

def mapChangers : List String :=
  ["clear", "pop", "popitem", "setdefault", "update"]

def integerMembers : List String :=
  ["as_integer_ratio", "bit_count", "bit_length", "conjugate", "denominator", "from_bytes", "imag",
   "numerator", "real", "to_bytes"]

def floatMembers : List String :=
  ["as_integer_ratio", "conjugate", "fromhex", "hex", "imag", "is_integer", "real"]

def loopMembers : List String :=
  ["index", "index0", "revindex", "revindex0", "first", "last", "length", "depth", "depth0",
   "previtem", "nextitem", "cycle", "changed"]

def changers : Value → List String
  | .list _ => listChangers
  | .map _ => mapChangers
  | _ => []

/-- The members that every value of the kind has, hidden ones apart. -/
def members : Value → List String
  | .none => []
  | .bool _ | .int _ => integerMembers
  | .float _ => floatMembers
  | .text safe _ => if safe then safeTextMembers ++ textMembers else textMembers
  | .list _ => listChangers ++ ["copy", "count", "index"]
  | .tuple _ => ["count", "index"]
  | .map _ => mapChangers ++ ["copy", "fromkeys", "get", "items", "keys", "values"]
  | .range .. => ["count", "index", "start", "step", "stop"]
  | .view .. => ["isdisjoint", "mapping"]
  | .loop .. => loopMembers
  | _ => []

/-- The hidden members that every value has. -/
def commonMembers : List String :=
  ["__class__", "__delattr__", "__dir__", "__doc__", "__eq__", "__format__", "__ge__",
   "__getattribute__", "__getstate__", "__gt__", "__hash__", "__init__", "__init_subclass__",
   "__le__", "__lt__", "__ne__", "__new__", "__reduce__", "__reduce_ex__", "__repr__",
   "__setattr__", "__sizeof__", "__str__", "__subclasshook__"]

/-- The hidden members of values that hold others. -/
def holderMembers : List String :=
  ["__contains__", "__getitem__", "__iter__", "__len__"]

def hiddenMembers (value : Value) : List String :=
  match value with
  | .none => "__bool__" :: commonMembers
  | .bool _ | .int _ | .float _ => ["__abs__", "__add__", "__bool__", "__int__"] ++ commonMembers
  | .text .. | .list _ | .tuple _ | .map _ | .range .. => holderMembers ++ commonMembers
  | .function _ => ["__call__", "__code__", "__globals__", "__name__", "__dict__"] ++ commonMembers
  | _ => commonMembers

def property? (value : Value) (name : String) : Option Value :=
  match value with
  | .bool b =>
    match name with
    | "real" | "numerator" => some (.int (boolInt b))
    | "imag" => some (.int 0)
    | "denominator" => some (.int 1)
    | _ => Option.none
  | .int n =>
    match name with
    | "real" | "numerator" => some (.int n)
    | "imag" => some (.int 0)
    | "denominator" => some (.int 1)
    | _ => Option.none
  | .float x =>
    match name with
    | "real" => some (.float x)
    | "imag" => some (.float 0)
    | _ => Option.none
  | .range start stop step =>
    match name with
    | "start" => some (.int start)
    | "stop" => some (.int stop)
    | "step" => some (.int step)
    | _ => Option.none
  | .loop index length depth =>
    match name with
    | "index" => some (.int (index + 1))
    | "index0" => some (.int index)
    | "revindex" => some (.int (length - index))
    | "revindex0" => some (.int (length - index - 1))
    | "first" => some (.bool (index == 0))
    | "last" => some (.bool (index + 1 == length))
    | "length" => some (.int length)
    | "depth" => some (.int (depth + 1))
    | "depth0" => some (.int depth)
    | _ => Option.none
  | _ => Option.none

/-- The absence that stands for a member which the sandbox hides. -/
def hiddenMember (guard : Guard) (value : Value) (name : List Char) : Value :=
  .absent
    ⟨"access to attribute ".toList ++ Text.quoted name ++ " of ".toList ++
        Text.quoted value.kindName ++ " object is unsafe.".toList, guard.strict, true⟩

/-- The member that every value of the kind has. -/
def ownMember? (guard : Guard) (value : Value) (name : List Char) : Option Value :=
  let word := String.ofList name
  if value.hiddenMembers.contains word then
    some (if guard.sandboxed then value.hiddenMember guard name else .method value name)
  else if value.members.contains word then
    if guard.immutable && value.changers.contains word then some (value.hiddenMember guard name)
    else some ((value.property? word).getD (.method value name))
  else Option.none

/-- The place of an index in a sequence; a negative one counts from the end. -/
def place? (length : Nat) (index : Int) : Option Nat :=
  if 0 ≤ index then if index.toNat < length then some index.toNat else Option.none
  else if index.natAbs ≤ length then some (length - index.natAbs) else Option.none

def entry? (value index : Value) : Option Value :=
  let at? {α : Type} (items : List α) : Option α :=
    match Number.ofValue? index with
    | some (.int n) => (place? items.length n).bind fun place => items[place]?
    | _ => Option.none
  match value with
  | .list items | .tuple items => at? items
  | .text safe s => (at? s).map fun c => .text safe [c]
  | .range start stop step => at? (rangeItems start stop step)
  | .map entries =>
    match index.key? with
    | .ok (some key) => Table.get? entries key
    | _ => Option.none
  | _ => Option.none

def member (guard : Guard) (value : Value) (name : List Char) : Except Problem Value :=
  match value with
  | .absent absence =>
    if guard.sandboxed && commonMembers.contains (String.ofList name) then
      .ok (value.hiddenMember guard name)
    else .error absence.problem
  | _ =>
    -- What belongs to the kind of the value hides an entry of the same name.
    match value.ownMember? guard name, value.entry? (plain name) with
    | some own, _ => .ok own
    | Option.none, some entry => .ok entry
    | Option.none, Option.none => .ok (missingMember guard.strict value name)

def item (guard : Guard) (value index : Value) : Except Problem Value :=
  match value with
  | .absent absence => .error absence.problem
  | _ =>
    match value.entry? index, index with
    | some entry, _ => .ok entry
    | Option.none, .text _ name =>
      .ok ((value.ownMember? guard name).getD (missingMember guard.strict value name))
    | Option.none, .absent absence => absence.lenient (missingItem guard.strict value index)
    | Option.none, _ => .ok (missingItem guard.strict value index)

/-- An end of a slice, which may be left out. -/
def sliceEnd (value : Value) : Except Problem (Option Int) :=
  match value, Number.ofValue? value with
  | .none, _ => .ok Option.none
  | _, some (.int n) => .ok (some n)
  | .absent absence, _ => .error absence.problem
  | _, _ => .error .wrongType

/-- The first place of a slice, the place that it stops at, and its step. -/
def sliceBounds (length : Nat) (start stop : Option Int) (step : Int) : Int × Int :=
  let lowest : Int := if step < 0 then -1 else 0
  let highest : Int := if step < 0 then (length : Int) - 1 else length
  let bound (position : Int) : Int :=
    if position < 0 then max (position + length) lowest else min position highest
  let start := (start.map bound).getD (if step < 0 then highest else lowest)
  let stop := (stop.map bound).getD (if step < 0 then lowest else highest)
  (start, stop)

def sliced {α : Type} (items : List α) (start stop : Option Int) (step : Int) : List α :=
  let (first, last) := sliceBounds items.length start stop step
  (List.range (rangeLength first last step)).filterMap fun (i : Nat) =>
    items[(first + step * i).toNat]?

def slice (value start stop step : Value) : Except Problem Value := do
  match value with
  | .absent absence => .error absence.problem
  | .list _ | .tuple _ | .text .. | .range .. =>
    let start ← start.sliceEnd
    let stop ← stop.sliceEnd
    let step := (← step.sliceEnd).getD 1
    if step == 0 then .error .wrongValue
    else
      match value with
      | .list items => return .list (sliced items start stop step)
      | .tuple items => return .tuple (sliced items start stop step)
      | .text safe s => return .text safe (sliced s start stop step)
      | .range a b c =>
        let (first, last) := sliceBounds (rangeLength a b c) start stop step
        return .range (a + c * first) (a + c * last) (c * step)
      | _ => .error .wrongType
  | _ => .error .wrongType

end Value

end Stencil.Host
