/-!
# Searching a text

Positions count characters.  A found position is the first one, or the last one for
`lastIndexOf?`, at which the pattern begins.
-/

namespace Stencil.Text

def after? : List Char → List Char → Option (List Char)
  | [], text => some text
  | _ :: _, [] => none
  | p :: pattern, c :: text => if p = c then after? pattern text else none

theorem eq_append_of_after? {pattern text rest : List Char}
    (hafter : after? pattern text = some rest) : text = pattern ++ rest := by
  fun_induction after? pattern text with
  | case1 text => simp_all
  | case2 => simp at hafter
  | case3 p pattern text ih => simp [ih hafter]
  | case4 => simp at hafter

/-- The first position at which the pattern begins. -/
def indexOf? (pattern : List Char) : List Char → Option Nat
  | [] => if pattern.isEmpty then some 0 else none
  | c :: text =>
    if pattern.isPrefixOf (c :: text) then some 0 else (indexOf? pattern text).map (· + 1)

/-- The last position at which the pattern begins. -/
def lastIndexOf? (pattern : List Char) : List Char → Option Nat
  | [] => if pattern.isEmpty then some 0 else none
  | c :: text =>
    match lastIndexOf? pattern text with
    | some position => some (position + 1)
    | none => if pattern.isPrefixOf (c :: text) then some 0 else none

def contains (pattern text : List Char) : Bool :=
  (indexOf? pattern text).isSome

def splitFirst? (separator text : List Char) : Option (List Char × List Char) :=
  (indexOf? separator text).map fun position =>
    (text.take position, text.drop (position + separator.length))

def splitLast? (separator text : List Char) : Option (List Char × List Char) :=
  (lastIndexOf? separator text).map fun position =>
    (text.take position, text.drop (position + separator.length))

/-- Walk along the text; `held` is the current part in reverse, `skip` counts the characters of
the separator that are still to be passed over. -/
def splitAllFrom (separator held : List Char) : Nat → List Char → List (List Char)
  | _, [] => [held.reverse]
  | skip + 1, _ :: text => splitAllFrom separator held skip text
  | 0, c :: text =>
    if separator.isPrefixOf (c :: text) then
      held.reverse :: splitAllFrom separator [] (separator.length - 1) text
    else splitAllFrom separator (c :: held) 0 text

def splitAll (separator text : List Char) : List (List Char) :=
  splitAllFrom separator [] 0 text

/-- Every occurrence of the pattern, taken from left to right, becomes the replacement. -/
def replaceAll (pattern replacement text : List Char) : List Char :=
  List.intercalate replacement (splitAll pattern text)

end Stencil.Text
