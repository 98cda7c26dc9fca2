/-!
# Blank characters

The blanks are the control characters that separate text, the space, and the typographic spaces,
line and paragraph separators.  The zero-width space and the byte-order mark are not blank.
-/

namespace Stencil.Text

def isBlank (c : Char) : Bool :=
  let n := c.toNat
  (9 ≤ n && n ≤ 13) || (28 ≤ n && n ≤ 32) || n == 0x85 || n == 0xA0 || n == 0x1680 ||
    (0x2000 ≤ n && n ≤ 0x200A) || n == 0x2028 || n == 0x2029 || n == 0x202F ||
    n == 0x205F || n == 0x3000

def skipBlanks (text : List Char) : List Char :=
  text.dropWhile isBlank

def trimEnd (text : List Char) : List Char :=
  (skipBlanks text.reverse).reverse

def trim (text : List Char) : List Char :=
  trimEnd (skipBlanks text)

def blankWidth (text : List Char) : Nat :=
  (text.takeWhile isBlank).length

/-- The maximal runs of characters that are not blank. -/
def fields (text : List Char) : List (List Char) :=
  match text with
  | [] => []
  | c :: rest =>
    if isBlank c then fields rest
    else (c :: rest.takeWhile (!isBlank ·)) :: fields (rest.dropWhile (!isBlank ·))
termination_by text.length
decreasing_by
  · simp
  · have := (List.dropWhile_sublist (!isBlank ·) (l := rest)).length_le
    simp only [List.length_cons]
    omega

end Stencil.Text
