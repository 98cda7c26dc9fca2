import Stencil.Data.Table
import Stencil.Decimal.Text
import Stencil.Text.Quoted

/-!
# Plain data

The data of configuration files and template variables.  A mapping keeps the order in which its
keys were first written.  Numbers that are equal count as equal whatever their kind, and the two
truth values count as one and zero.
-/

namespace Stencil.Data

inductive Key where
  | null
  | bool (b : Bool)
  | int (n : Int)
  | float (x : Float)
  | text (s : String)

inductive Value where
  | null
  | bool (b : Bool)
  | int (n : Int)
  | float (x : Float)
  | text (s : String)
  | list (items : List Value)
  | map (entries : List (Key × Value))

instance : Inhabited Value := ⟨.null⟩

def floatIsInt (x : Float) (n : Int) : Bool :=
  match Decimal.parts x with
  | .zero _ => n == 0
  | .finite negative m =>
    let sign : Int := if negative then -1 else 1
    if 0 ≤ m.exponent then sign * (m.mantissa * Nat.pow 2 m.exponent.toNat : Nat) == n
    else sign * (m.mantissa : Int) == n * (Nat.pow 2 (-m.exponent).toNat : Nat)
  | _ => false

def boolInt (b : Bool) : Int :=
  if b then 1 else 0

/-- Keys that are equal as numbers or as texts. -/
def Key.same : Key → Key → Bool
  | .null, .null => true
  | .text s, .text t => s == t
  | .float x, .float y => x == y
  | .float x, .int n | .int n, .float x => floatIsInt x n
  | .float x, .bool b | .bool b, .float x => floatIsInt x (boolInt b)
  | .int m, .int n => m == n
  | .int n, .bool b | .bool b, .int n => n == boolInt b
  | .bool a, .bool b => a == b
  | _, _ => false

instance : BEq Key := ⟨Key.same⟩

theorem Key.beq_text_iff (key : Key) (s : String) :
    (key == Key.text s) = true ↔ key = Key.text s := by
  change Key.same key (Key.text s) = true ↔ _
  cases key <;> simp [Key.same]

def Key.value : Key → Value
  | .null => .null
  | .bool b => .bool b
  | .int n => .int n
  | .float x => .float x
  | .text s => .text s

mutual

/-- Equality of data, by numeric value and without regard to the order of a mapping. -/
def Value.same : Value → Value → Bool
  | .list xs, .list ys => sameItems xs ys
  | .map xs, .map ys => xs.length == ys.length && sameEntries xs ys
  | .null, .null => true
  | .text s, .text t => s == t
  | .float x, .float y => x == y
  | .float x, .int n | .int n, .float x => floatIsInt x n
  | .float x, .bool b | .bool b, .float x => floatIsInt x (boolInt b)
  | .int m, .int n => m == n
  | .int n, .bool b | .bool b, .int n => n == boolInt b
  | .bool a, .bool b => a == b
  | _, _ => false

def sameItems : List Value → List Value → Bool
  | [], [] => true
  | x :: xs, y :: ys => x.same y && sameItems xs ys
  | _, _ => false

/-- Every entry has one of the same key and an equal value on the other side. -/
def sameEntries : List (Key × Value) → List (Key × Value) → Bool
  | [], _ => true
  | (k, x) :: xs, ys =>
    (match Table.get? ys k with
      | some y => x.same y
      | none => false) && sameEntries xs ys

end

def Value.isMap : Value → Bool
  | .map _ => true
  | _ => false

def Value.text? : Value → Option String
  | .text s => some s
  | _ => none

def Value.field? (value : Value) (name : String) : Option Value :=
  match value with
  | .map entries => Table.get? entries (Key.text name)
  | _ => none

def truthWord (b : Bool) : List Char :=
  if b then ['T', 'r', 'u', 'e'] else ['F', 'a', 'l', 's', 'e']

def intText (n : Int) : List Char :=
  if n < 0 then '-' :: Decimal.digitsOf n.natAbs else Decimal.digitsOf n.natAbs

def Key.quoted : Key → List Char
  | .null => ['N', 'o', 'n', 'e']
  | .bool b => truthWord b
  | .int n => intText n
  | .float x => Decimal.floatText x
  | .text s => Text.quoted s.toList

def commaSeparated (items : List (List Char)) : List Char :=
  List.intercalate [',', ' '] items

mutual

/-- The data written out, texts in quotes. -/
def Value.quoted : Value → List Char
  | .null => ['N', 'o', 'n', 'e']
  | .bool b => truthWord b
  | .int n => intText n
  | .float x => Decimal.floatText x
  | .text s => Text.quoted s.toList
  | .list items => '[' :: commaSeparated (quotedItems items) ++ [']']
  | .map entries => '{' :: commaSeparated (quotedEntries entries) ++ ['}']

def quotedItems : List Value → List (List Char)
  | [] => []
  | x :: xs => x.quoted :: quotedItems xs

def quotedEntries : List (Key × Value) → List (List Char)
  | [] => []
  | (k, x) :: xs => (k.quoted ++ ':' :: ' ' :: x.quoted) :: quotedEntries xs

end

/-- The data as text: a text stands for itself, all else is written out. -/
def Value.shown : Value → List Char
  | .text s => s.toList
  | value => value.quoted

/-- Empty data, zero and the null value are not true. -/
def Value.truthy : Value → Bool
  | .null => false
  | .bool b => b
  | .int n => n != 0
  | .float x => !(x == 0)
  | .text s => !s.isEmpty
  | .list items => !items.isEmpty
  | .map entries => !entries.isEmpty

end Stencil.Data
