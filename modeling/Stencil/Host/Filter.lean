import Stencil.Data.JsonText
import Stencil.Decimal.Read
import Stencil.Host.Method
import Stencil.Host.Sort
import Stencil.Markup.Plain

/-!
# Filters

A filter is a function of a value and some arguments.  Those that work on text take any value by
its text, and safe text stays safe where the result is as harmless.
-/

namespace Stencil.Host

open Stencil.Data Stencil.Decimal Stencil.Text

/-- What filters have to know about the template that they are used in. -/
structure Settings where
  autoescape : Bool
  guard : Guard

namespace Filter

/-- The value as text, safe if it was safe. -/
def soft (value : Value) : Except Problem (Bool × List Char) := do
  return (value.isSafe, ← value.shown)

def onText (change : List Char → List Char) (value : Value) : Except Problem Value := do
  let (safe, s) ← soft value
  return .text safe (change s)

def given (argument : Option Value) (fallback : Value) : Value :=
  argument.getD fallback

def number (value : Value) : Except Problem Number :=
  match value, Number.ofValue? value with
  | .absent absence, _ => .error absence.problem
  | _, some x => .ok x
  | _, none => .error .wrongType

def absolute (value : Value) : Except Problem Value :=
  match Number.ofValue? value with
  | some (.int n) => .ok (.int n.natAbs)
  | some (.float x) => .ok (.float x.abs)
  | none => .error .wrongType

def fallback (value other onFalse : Value) : Except Problem Value :=
  match value with
  | .absent _ => .ok other
  | _ => do
    if (← onFalse.truth) && !(← value.truth) then return other else return value

def first (guard : Guard) (value : Value) : Except Problem Value := do
  return (← value.items).headD
    (.absent ⟨"No first item, sequence was empty.".toList, guard.strict, false⟩)

def last (guard : Guard) (value : Value) : Except Problem Value :=
  match value with
  | .stream _ => .error .wrongType
  | _ => do
    return (← value.items).getLastD
      (.absent ⟨"No last item, sequence was empty.".toList, guard.strict, false⟩)

def toFloat (value other : Value) : Except Problem Value :=
  match value with
  | .absent absence => .error absence.problem
  | .text _ s => .ok ((readFloat? s).elim other .float)
  | _ =>
    match Number.ofValue? value with
    | some x => x.toFloat.map .float
    | none => .ok other

/-- The integer that is left of a double. -/
def truncated (x : Float) (other : Value) : Value :=
  match Ratio.ofFloat? x with
  | some ratio => .int ratio.truncate
  | none => other

/-- The integer that a value is or that its text writes, cut off after the point. -/
def toInt (value other : Value) : Except Problem Value :=
  match value with
  | .absent absence => .error absence.problem
  | .text _ s =>
    match readInt? s with
    | some n => .ok (.int n)
    | none => .ok ((readFloat? s).elim other (truncated · other))
  | _ =>
    match Number.ofValue? value with
    | some (.int n) => .ok (.int n)
    | some (.float x) =>
      if x.isInf then .error .overflow else .ok (truncated x other)
    | none => .ok other

/-- The texts of the items with a separator between them.  If an item or the separator is safe,
all the others are escaped. -/
def join (settings : Settings) (value separator : Value) : Except Problem Value := do
  let items ← value.items
  let texts ← items.mapM soft
  let (separatorSafe, s) ← soft separator
  if settings.autoescape && (separatorSafe || items.any Value.isSafe) then
    let parts := texts.map fun (safe, text) => Value.escaped safe text
    return .text true (List.intercalate (Value.escaped separatorSafe s) parts)
  else return .plain (List.intercalate s (texts.map Prod.snd))

def replaceSome (old new : List Char) (count : Option Nat) (s : List Char) : List Char :=
  let parts := if old.isEmpty then [] :: s.map ([·]) ++ [[]] else splitAll old s
  let parts := if old.isEmpty && s.isEmpty then [[], []] else parts
  match count with
  | none => List.intercalate new parts
  | some count =>
    let ending := parts.drop count
    List.intercalate new (parts.take count ++ [List.intercalate old ending])

def replaceText (settings : Settings) (value old new count : Value) : Except Problem Value := do
  let (oldSafe, old) ← soft old
  let (newSafe, new) ← soft new
  let (safe, s) ← soft value
  let count ←
    match count with
    | .none => .ok none
    | .int n => .ok (if n < 0 then none else some n.toNat)
    | _ => .error .wrongType
  if settings.autoescape then
    let escape := oldSafe || (newSafe && !safe)
    let s := if escape then Value.escaped safe s else s
    if safe || escape then
      return .text true (replaceSome old (Value.escaped newSafe new) count s)
    else return .plain (replaceSome old new count s)
  else return .plain (replaceSome old new count s)

def reversed (value : Value) : Except Problem Value :=
  match value with
  | .text safe s => .ok (.text safe s.reverse)
  | _ =>
    match value.items with
    | .ok items => .ok (.stream items.reverse)
    | .error .wrongType => .error .wrongFilterArgument
    | .error problem => .error problem

/-- The number rounded to so many places, or to the next one above or below. -/
def rounded (value places method : Value) : Except Problem Value := do
  let places ←
    match Number.ofValue? places with
    | some (.int n) => .ok n
    | _ => .error .wrongType
  match method with
  | .text _ word =>
    if word == "common".toList then
      match ← number value with
      | .int n => return .int (roundInt n places)
      | .float x => return .float (roundPlaces x places)
    else if word == "ceil".toList || word == "floor".toList then
      let unit ← (Number.int 10).operation .power (.int places)
      let scaled ← Value.arithmetic .multiply value unit
      let whole ←
        match Number.ofValue? scaled with
        | some (.int n) => .ok n
        | some (.float x) =>
          match Ratio.ofFloat? x with
          | some ratio =>
            .ok (if word == "floor".toList then ratio.floor
              else -(Ratio.floor ⟨-ratio.numerator, ratio.denominator⟩))
          | none => .error (if x.isNaN then Problem.wrongValue else .overflow)
        | none => .error .wrongType
      Value.arithmetic .divide (.int whole) unit
    else .error .wrongFilterArgument
  | _ => .error .wrongFilterArgument

def total (value start : Value) : Except Problem Value := do
  (← value.items).foldlM (fun sum item => sum.arithmetic .add item) start

/-- Blanks, hyphens and opening brackets, behind which a word begins. -/
def beginsWord (c : Char) : Bool :=
  c == '-' || isBlank c || c == '(' || c == '{' || c == '[' || c == '<'

/-- Every word with a capital in front and small letters behind it.  Inside of a word, `held` is what
was read of it behind the capital, in reverse. -/
def titledFrom (held : Option (List Char)) : List Char → List Char
  | [] => []
  | c :: rest =>
    if beginsWord c then c :: titledFrom none rest
    else
      match held with
      | none => upperChar c ++ titledFrom (some []) rest
      | some held =>
        lowerBetween held c (rest.takeWhile (!beginsWord ·)) ++ titledFrom (some (c :: held)) rest

def titled (text : List Char) : List Char :=
  titledFrom none text

/-- How many characters a text may be too long and still be left alone. -/
def truncateLeeway : Int := 5

/-- A text cut to a length, at a blank if possible, with a mark at its end. -/
def truncate (value length killWords ending leeway : Value) : Except Problem Value := do
  let length ←
    match Number.ofValue? length with
    | some (.int n) => .ok n
    | _ => .error .wrongType
  let (endingSafe, ending) ← soft ending
  let leeway :=
    match leeway with
    | .int n => n
    | _ => truncateLeeway
  if length < ending.length || leeway < 0 then .error .brokenPromise
  else
    let size ← value.size
    if (size : Int) ≤ length + leeway then return value
    else
      match value with
      | .text safe s =>
        let kept := s.take (length - ending.length).toNat
        let kept :=
          if ← killWords.truth then kept
          else
            match splitLast? [' '] kept with
            | some (before, _) => before
            | none => kept
        Value.arithmetic .add (.text safe kept) (.text endingSafe ending)
      | _ => .error .wrongMember

/-- Characters that stand for themselves in an address. -/
def isUnreserved (c : Char) : Bool :=
  c.isAlphanum || c == '_' || c == '.' || c == '-' || c == '~'

def percentByte (byte : UInt8) : List Char :=
  '%' :: padLeft 2 ((Nat.toDigits 16 byte.toNat).map Char.toUpper)

def addressForm (kept : Char → Bool) (s : List Char) : List Char :=
  s.flatMap fun c =>
    if isUnreserved c || kept c then [c]
    else (String.singleton c).toUTF8.toList.flatMap percentByte

/-- A text as part of a query, in which a blank is a plus. -/
def queryForm (value : Value) : Except Problem (List Char) := do
  return replaceAll "%20".toList ['+'] (addressForm (fun _ => false) (← value.shown))

def pairOf (value : Value) : Except Problem (Value × Value) := do
  match ← value.items with
  | [key, value] => return (key, value)
  | _ => .error .wrongValue

def queryOf (pairs : List Value) : Except Problem Value := do
  let parts ← pairs.mapM fun pair => do
    let (key, value) ← pairOf pair
    return (← queryForm key) ++ '=' :: (← queryForm value)
  return .plain (List.intercalate ['&'] parts)

def urlEncode (value : Value) : Except Problem Value :=
  let whole : Except Problem Value := do
    return .plain (addressForm (· == '/') (← value.shown))
  match value with
  | .text .. => whole
  | .map entries => queryOf (Method.entryItems entries)
  | .absent absence => do queryOf (← absence.lenient [])
  | _ =>
    match value.items with
    | .ok items => queryOf items
    | .error _ => whole

def countWords (inWord : Bool) : List Char → Nat
  | [] => 0
  | c :: rest =>
    if isWord c then countWords true rest + if inWord then 0 else 1 else countWords false rest

/-- A character of a text in data notation that may stand in markup. -/
def dataChar (c : Char) : List Char :=
  if c == '<' || c == '>' || c == '&' || c == '\'' then Json.unitsForm c else Json.charForm c

def dataText (s : List Char) : List Char :=
  Json.textForm dataChar s

def dataWord (b : Bool) : List Char :=
  if b then "true".toList else "false".toList

def dataKey : Key → List Char
  | .null => dataText "null".toList
  | .bool b => dataText (dataWord b)
  | .int n => dataText (intText n)
  | .float x => dataText (floatText x)
  | .text s => dataText s.toList

mutual

def dataForm : Value → Except Problem (List Char)
  | .none => .ok "null".toList
  | .bool b => .ok (dataWord b)
  | .int n => .ok (intText n)
  | .float x =>
    .ok (if x.isNaN then "NaN".toList
      else if x.isInf then (if x < 0 then "-Infinity".toList else "Infinity".toList)
      else floatText x)
  | .text _ s => .ok (dataText s)
  | .list items | .tuple items => do
    return '[' :: commaSeparated (← dataItems items) ++ [']']
  | .map entries => do
    let written ← dataEntries entries
    let sorted := written.mergeSort fun a b => !(Value.textLess b.1 a.1)
    return '{' :: commaSeparated (sorted.map fun (key, text) => key ++ ':' :: ' ' :: text) ++
      ['}']
  | _ => .error .wrongType

def dataItems : List Value → Except Problem (List (List Char))
  | [] => .ok []
  | x :: xs => do
    let first ← dataForm x
    return first :: (← dataItems xs)

def dataEntries : List (Key × Value) → Except Problem (List (List Char × List Char))
  | [] => .ok []
  | (k, x) :: xs => do
    let first ← dataForm x
    return (dataKey k, first) :: (← dataEntries xs)

end

def sortedEntries (value : Value) : Except Problem Value :=
  match value with
  | .map entries => do
    let pairs ← sortValues (entries.map fun entry => .ofKey entry.1)
    return .list (pairs.filterMap fun key =>
      (value.entry? key).map fun entry => .tuple [key, entry])
  | _ => .error .wrongMember

def call (settings : Settings) (name : String) (arguments : Arguments) :
    Except Problem Value := do
  let unary : Except Problem Value := do
    match ← arguments.bind 1 ["value"] with
    | [some value] => return value
    | _ => .error .wrongType
  match name with
  | "abs" => absolute (← unary)
  | "capitalize" => onText Text.capitalize (← unary)
  | "default" | "d" =>
    match ← arguments.bind 1 ["value", "default_value", "boolean"] with
    | [some value, other, onFalse] =>
      fallback value (given other (.plain [])) (given onFalse (.bool false))
    | _ => .error .wrongType
  | "escape" | "e" => do
    let (safe, s) ← soft (← unary)
    return .text true (Value.escaped safe s)
  | "first" => first settings.guard (← unary)
  | "last" => last settings.guard (← unary)
  | "float" =>
    match ← arguments.bind 1 ["value", "default"] with
    | [some value, other] => toFloat value (given other (.float 0))
    | _ => .error .wrongType
  | "int" =>
    match ← arguments.bind 1 ["value", "default"] with
    | [some value, other] => toInt value (given other (.int 0))
    | _ => .error .wrongType
  | "join" =>
    match ← arguments.bind 1 ["value", "d"] with
    | [some value, separator] => join settings value (given separator (.plain []))
    | _ => .error .wrongType
  | "length" | "count" => return .int (← (← unary).size)
  | "list" => return .list (← (← unary).items)
  | "lower" => onText lowerText (← unary)
  | "upper" => onText upperText (← unary)
  | "replace" =>
    match ← arguments.bind 3 ["s", "old", "new", "count"] with
    | [some value, some old, some new, count] =>
      replaceText settings value old new (given count .none)
    | _ => .error .wrongType
  | "reverse" => reversed (← unary)
  | "round" =>
    match ← arguments.bind 1 ["value", "precision", "method"] with
    | [some value, places, method] =>
      rounded value (given places (.int 0)) (given method (.plain "common".toList))
    | _ => .error .wrongType
  | "safe" => return .text true (← (← unary).shown)
  | "sort" =>
    match ← arguments.bind 1 ["value", "reverse"] with
    | [some value, downwards] =>
      return .list
        (← sortDirected (← (given downwards (.bool false)).truth) (← value.items))
    | _ => .error .wrongType
  | "string" =>
    let (safe, s) ← soft (← unary)
    return .text safe s
  | "striptags" => return .plain (Markup.plainText (← (← unary).shown))
  | "sum" =>
    match ← arguments.bind 1 ["iterable", "attribute", "start"] with
    | [some value, none, start] => total value (given start (.int 0))
    | _ => .error .wrongType
  | "title" => return .plain (titled (← (← unary).shown))
  | "trim" =>
    match ← arguments.bind 1 ["value", "chars"] with
    | [some value, chars] =>
      let inSet ← Method.stripSet chars
      onText (fun s => Method.stripEnd inSet (Method.stripStart inSet s)) value
    | _ => .error .wrongType
  | "truncate" =>
    match ← arguments.bind 1 ["s", "length", "killwords", "end", "leeway"] with
    | [some value, length, killWords, ending, leeway] =>
      truncate value (given length (.int 255)) (given killWords (.bool false))
        (given ending (.plain "...".toList)) (given leeway .none)
    | _ => .error .wrongType
  | "unique" => return .stream (← distinct (← (← unary).items))
  | "urlencode" => urlEncode (← unary)
  | "wordcount" => return .int (countWords false (← (← unary).shown))
  | "tojson" => return .text true (← dataForm (← unary))
  | "pprint" => return .plain (← unary).quoted
  | "dictsort" => sortedEntries (← unary)
  | _ => .error .wrongType

end Filter

end Stencil.Host
