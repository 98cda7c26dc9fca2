import Stencil.Text.Quoted

/-!
# Texts in JSON

A text is written in ASCII: every other character is written by the numbers of its UTF-16 units.
-/

namespace Stencil.Data.Json

def unitForm (n : Nat) : List Char :=
  '\\' :: 'u' :: Text.hexDigits 4 n

/-- A character by the numbers of its units. -/
def unitsForm (c : Char) : List Char :=
  let n := c.toNat
  if n < 0x10000 then unitForm n
  else unitForm (0xD800 + (n - 0x10000) / 0x400) ++ unitForm (0xDC00 + (n - 0x10000) % 0x400)

def charForm (c : Char) : List Char :=
  match c with
  | '"' => ['\\', '"']
  | '\\' => ['\\', '\\']
  | '\n' => ['\\', 'n']
  | '\r' => ['\\', 'r']
  | '\t' => ['\\', 't']
  | '\x08' => ['\\', 'b']
  | '\x0c' => ['\\', 'f']
  | _ => if 32 ≤ c.toNat && c.toNat < 127 then [c] else unitsForm c

def textForm (form : Char → List Char) (text : List Char) : List Char :=
  '"' :: text.flatMap form ++ ['"']

end Stencil.Data.Json
