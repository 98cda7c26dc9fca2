import Stencil.Text.Cut
import Mathlib.Data.List.Basic

/-!
# Where a cut finds nothing

A text is cut from the left, and a match takes its whole width, so not every place of a text is
looked at.  Where no match is found, every place was looked at.
-/

namespace Stencil.Text

theorem recognise_eq_none_of_cutFrom
    {α : Type} {recognise : List Char → Option (Hit α)} {held text tail : List Char}
    (hnone : (cutFrom recognise held text).filterMap Piece.found? = []) (htail : tail <:+ text)
    (hnonempty : tail ≠ []) : recognise tail = none := by
  fun_induction cutFrom recognise held text with
  | case1 held => exact absurd (List.suffix_nil.mp htail) hnonempty
  | case2 held c rest hrecognise ih =>
      rcases List.suffix_cons_iff.mp htail with rfl | hrest
      · exact hrecognise
      · exact ih hnone hrest
  | case3 held c rest hit hrecognise ih => simp [Piece.found?] at hnone

theorem recognise_eq_none_of_hits
    {α : Type} {recognise : List Char → Option (Hit α)} {text tail : List Char}
    (hhits : hits recognise text = []) (htail : tail <:+ text) (hnonempty : tail ≠ []) :
    recognise tail = none :=
  recognise_eq_none_of_cutFrom hhits htail hnonempty

theorem kept_sublist_text {α : Type} (pieces : List (Piece α)) :
    (pieces.flatMap Piece.kept).Sublist (pieces.flatMap Piece.text) := by
  induction pieces with
  | nil => exact .slnil
  | cons piece rest ih =>
      rw [List.flatMap_cons, List.flatMap_cons]
      cases piece with
      | plain text => exact ih.append_left text
      | hit found value => exact ih.trans (List.sublist_append_right found _)

theorem remove_sublist {α : Type} (recognise : List Char → Option (Hit α)) (text : List Char) :
    (remove recognise text).Sublist text := by
  have hpieces := kept_sublist_text (cut recognise text)
  rw [flatMap_text_cut] at hpieces
  exact hpieces

end Stencil.Text
