import Stencil.Engine.Render
import Stencil.Proofs.ServerCode
import Stencil.Proofs.ServerCode.Marker
import Mathlib.Algebra.GroupWithZero.Nat
import Mathlib.Logic.Relation

/-!
# Removing server code

The segments of server code are removed in rounds, since a removal can join the text around it into
a new segment.  Every round makes the text shorter, and the rounds end where no mark of server code
is left.  Nothing else is removed, and what was removed is reported.
-/

namespace Stencil.ServerCode

open Stencil.Text

/-- One round: all segments of the text are removed at once. -/
def Round (before after : List Char) : Prop :=
  segments before ≠ [] ∧ after = remove segment? before

theorem Round.length_lt {before after : List Char} (hround : Round before after) :
    after.length < before.length := by
  rw [hround.2]
  exact length_remove_lt hround.1

/-! ## All rounds -/

theorem strip_of_segments_eq_nil {text : List Char} (hnone : segments text = []) :
    strip text = (text, []) := by
  rw [strip, dif_pos hnone]

theorem strip_of_segments_ne_nil {text : List Char} (hfound : segments text ≠ []) :
    strip text =
      (clean (remove segment? text), segments text ++ (strip (remove segment? text)).2) := by
  rw [strip, dif_neg hfound]
  rfl

/-- What holds of a text without server code, and of a text if it holds after a round, holds of
every text. -/
theorem round_induction
    {motive : List Char → Prop} (hclean : ∀ text, segments text = [] → motive text)
    (hround : ∀ before after, Round before after → motive after → motive before)
    (text : List Char) : motive text := by
  induction hlength : text.length using Nat.strong_induction_on generalizing text with
  | _ length ih =>
      subst hlength
      by_cases hnone : segments text = []
      · exact hclean text hnone
      · have hstep : Round text (remove segment? text) := ⟨hnone, rfl⟩
        exact hround _ _ hstep (ih _ hstep.length_lt _ rfl)

theorem clean_of_round {before after : List Char} (hround : Round before after) :
    clean before = clean after := by
  obtain ⟨hfound, rfl⟩ := hround
  rw [clean, strip_of_segments_ne_nil hfound]

theorem rounds_clean (text : List Char) : Relation.ReflTransGen Round text (clean text) := by
  induction text using round_induction with
  | hclean text hnone =>
      rw [clean, strip_of_segments_eq_nil hnone]
  | hround before after hround ih =>
      rw [clean_of_round hround]
      exact .head hround ih

theorem clean_sublist (text : List Char) : (clean text).Sublist text := by
  have hrounds := rounds_clean text
  generalize clean text = result at hrounds
  induction hrounds with
  | refl => exact List.Sublist.refl text
  | tail _ hround ih =>
      rw [hround.2]
      exact (remove_sublist segment? _).trans ih

theorem length_removed_add_clean (text : List Char) :
    ((strip text).2.map List.length).sum + (clean text).length = text.length := by
  induction text using round_induction with
  | hclean text hnone => simp [clean, strip_of_segments_eq_nil hnone]
  | hround before after hround ih =>
      obtain ⟨hfound, rfl⟩ := hround
      have hlengths := length_remove_add_hits segment? before
      rw [List.length_flatten] at hlengths
      rw [clean_of_round ⟨hfound, rfl⟩, strip_of_segments_ne_nil hfound, List.map_append,
        List.sum_append]
      unfold segments
      omega

theorem removed_eq_nil_iff {text : List Char} : (strip text).2 = [] ↔ segments text = [] := by
  by_cases hnone : segments text = []
  · simp [strip_of_segments_eq_nil hnone, hnone]
  · simp [strip_of_segments_ne_nil hnone, hnone]

theorem clean_eq_self_iff {text : List Char} : clean text = text ↔ segments text = [] := by
  constructor
  · intro hclean
    rw [← hclean]
    exact segments_clean text
  · intro hnone
    rw [clean, strip_of_segments_eq_nil hnone]

/-! ## What is reported -/

theorem run_escapeServerCode (text : List Char) (engine : Engine.State) :
    (Engine.escapeServerCode text).run.run engine =
      (.ok (clean text),
        { engine with
          warnings := engine.warnings ++
            if segments text = [] then [] else [.removedServerCode (strip text).2] }) := by
  by_cases hnone : segments text = []
  · have hstrip := strip_of_segments_eq_nil hnone
    unfold Engine.escapeServerCode clean
    rw [if_pos hnone, hstrip, List.append_nil]
    rfl
  · have hremoved : (strip text).2.isEmpty = false := by
      rw [List.isEmpty_eq_false_iff]
      exact fun hnil => hnone (removed_eq_nil_iff.mp hnil)
    unfold Engine.escapeServerCode clean
    rw [if_neg hnone]
    generalize strip text = stripped at hremoved ⊢
    obtain ⟨kept, removed⟩ := stripped
    simp only at hremoved ⊢
    rw [hremoved]
    rfl

/-- In a clean text no place begins server code.  The rounds of removal come to it, keep all other
characters in their order, and report all that they remove; a text that holds no server code is kept
and nothing is reported. -/
theorem clean_eq_text_without_code (text : List Char) :
    (∀ tail, tail <:+ clean text → ¬ BeginsCode tail) ∧
      (∀ before after, Round before after → after.length < before.length) ∧
      Relation.ReflTransGen Round text (clean text) ∧
      (clean text).Sublist text ∧
      ((strip text).2.map List.length).sum + (clean text).length = text.length ∧
      (clean text = text ↔ segments text = []) ∧
      (∀ engine : Engine.State, (Engine.escapeServerCode text).run.run engine =
        (.ok (clean text),
          { engine with
            warnings := engine.warnings ++
              if segments text = [] then [] else [.removedServerCode (strip text).2] })) ∧
      clean (clean text) = clean text := by
  refine ⟨?_, fun before after hround => hround.length_lt, rounds_clean text, clean_sublist text,
    length_removed_add_clean text, clean_eq_self_iff, run_escapeServerCode text,
    clean_eq_self_iff.mpr (segments_clean text)⟩
  intro tail htail hbegins
  have hnonempty : tail ≠ [] := by
    rintro rfl
    cases hbegins
  have hnone := recognise_eq_none_of_hits (segments_clean text) htail hnonempty
  have hsome := isSome_segment?_iff.mpr hbegins
  rw [hnone] at hsome
  contradiction

/-- The removal of a segment joins the text around it into a second one. -/
theorem clean_eq_text_without_code_joined :
    (∀ tail, tail <:+ "safe".toList → ¬ BeginsCode tail) ∧
      clean "<<?php x ?>?php echo 1; ?>safe".toList = "safe".toList := by
  have hclean : clean "<<?php x ?>?php echo 1; ?>safe".toList = "safe".toList := by decide +kernel
  have htext := clean_eq_text_without_code "<<?php x ?>?php echo 1; ?>safe".toList
  rw [hclean] at htext
  exact ⟨htext.1, hclean⟩

end Stencil.ServerCode
