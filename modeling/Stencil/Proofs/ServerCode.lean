import Stencil.ServerCode
import Stencil.Proofs.Text.Cut
import Stencil.Proofs.Directive.Opener

/-!
# Clean text

Server code is removed until none is left, so no part of a clean text begins a segment of server
code.  The openers of host tags begin such segments, and a clean text holds none of them.
-/

namespace Stencil.ServerCode

open Stencil.Text Stencil.Directive

/-- Cleaning goes on until nothing is left to remove. -/
theorem segments_clean (text : List Char) : segments (clean text) = [] := by
  induction hlength : text.length using Nat.strong_induction_on generalizing text with
  | _ length ih =>
      subst hlength
      rw [clean, strip]
      split
      next hnone => exact hnone
      next hfound => exact ih _ (length_remove_lt hfound) _ rfl

theorem isSome_instructionWidth?_py (rest : List Char) :
    (instructionWidth? ('p' :: 'y' :: rest)).isSome := by
  have hpy : (afterWord? ['p', 'y'] ('p' :: 'y' :: rest)).isSome := by
    simp [afterWord?, List.isPrefixOf, foldCase]
  unfold instructionWidth?
  rw [if_pos hpy]
  split <;> rfl

/-- What opens a host tag is server code. -/
theorem isSome_segment? {text : List Char} (hopens : opensHostTag text = true) :
    (segment? text).isSome := by
  obtain ⟨rest, rfl | rfl | rfl⟩ := exists_of_opensHostTag hopens
  · rw [segment?, Option.isSome_map]
    exact isSome_instructionWidth?_py rest
  · rfl
  · rfl

theorem openerCount_clean (text : List Char) : openerCount (clean text) = 0 := by
  rw [openerCount_eq_zero_iff]
  intro tail htail
  rw [Bool.eq_false_iff]
  intro hopens
  have hnonempty : tail ≠ [] := by
    rintro rfl
    contradiction
  have hnone := recognise_eq_none_of_hits (segments_clean text) htail hnonempty
  have hsome := isSome_segment? hopens
  rw [hnone] at hsome
  contradiction

end Stencil.ServerCode
