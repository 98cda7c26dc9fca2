/-!
# Ranges of code points

A class of characters is given by the closed ranges of code points that it consists of.
-/

namespace Stencil.Text

def inRanges (ranges : List (Nat × Nat)) (n : Nat) : Bool :=
  ranges.any fun range => range.1 ≤ n && n ≤ range.2

end Stencil.Text
