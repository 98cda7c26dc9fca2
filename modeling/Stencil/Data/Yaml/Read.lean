import Stencil.Data.Yaml.Node
import Stencil.Data.Yaml.Scalar

/-!
# Reading YAML

The configuration notation with indentation.  A text holds at most one document; without one it
stands for nothing.  A list or mapping cannot be a key, and of two equal keys the last one counts.
Anchors, aliases and tags are no part of this notation; a text with one of them is malformed.
-/

namespace Stencil.Data.Yaml

def keyOf (value : Value) : Except Problem Key :=
  match value with
  | .null => .ok .null
  | .bool b => .ok (.bool b)
  | .int n => .ok (.int n)
  | .float x => .ok (.float x)
  | .text s => .ok (.text s)
  | .list _ | .map _ => .error .malformed

mutual

def Node.value : Node → Except Problem Value
  | .scalar true text => plainValue text
  | .scalar false text => .ok (.text (String.ofList text))
  | .list items => do .ok (.list (← valuesOf items))
  | .mapping entries => do .ok (.map (← entriesOf [] entries))

def valuesOf : List Node → Except Problem (List Value)
  | [] => .ok []
  | item :: rest => do
    let value ← item.value
    .ok (value :: (← valuesOf rest))

/-- Entries after those that have been read. -/
def entriesOf (read : List (Key × Value)) : List (Node × Node) →
    Except Problem (List (Key × Value))
  | [] => .ok read
  | (name, node) :: rest => do
    let key ← keyOf (← name.value)
    let value ← node.value
    entriesOf (Table.put read key value) rest

end

def read (text : List Char) : Except Problem Value := do
  match ← Node.ofTokens? (← tokens text) with
  | none => .ok .null
  | some node => node.value

end Stencil.Data.Yaml
