import Stencil.Proofs.Directive.Acceptance
import Stencil.Proofs.Directive.Unclosed

/-!
# Where the faults of a template point

A fault of compiling a template is a fault at one of its tokens, or at an opening mark that is never
closed.  Either way it gives an offset of the text and shows what stands there.
-/

namespace Stencil.Directive

open Stencil.Text

/-- The fault gives an offset of the text: what it shows of a directive stands there, or the tag of
a block with the name that it gives. -/
def PointsAt (text : List Char) : TemplateFault → Prop
  | .malformedDirective shown _ position =>
    ∃ offset < text.length,
      position = some (offset : Int) ∧ shown ≠ [] ∧ shown <+: text.drop offset
  | .unknownBlock name position =>
    ∃ found token attributes,
      tokens text = .ok found ∧ token ∈ found ∧ token.meaning = .blockOpen name attributes ∧
        position = some (token.start : Int) ∧ token.text <+: text.drop token.start
  | _ => False

variable {text shown : List Char} {found : List Token} {token : Token} {fault : TemplateFault}

theorem pointsAt_malformedDirective
    {offset : Nat} (hshown : shown ≠ []) (hat : shown <+: text.drop offset) (defect : Defect) :
    PointsAt text (.malformedDirective shown defect (some (offset : Int))) := by
  have hrest : text.drop offset ≠ [] := by
    intro hnone
    rw [hnone, List.prefix_nil] at hat
    exact hshown hat
  have hoffset : offset < text.length := by
    simpa [List.drop_eq_nil_iff] using hrest
  exact ⟨offset, hoffset, rfl, hshown, hat⟩

/-! ## Faults at tokens -/

theorem text_isPrefix_of_mem (htext : tokens text = .ok found) (hmem : token ∈ found) :
    token.text <+: text.drop token.start := by
  have hslice := (scanned_of_tokensFrom htext).partition.slice token hmem
  rw [List.extract_eq_take_drop] at hslice
  rw [hslice]
  exact List.take_prefix _ _

theorem pointsAt_fault_of_mem
    (htext : tokens text = .ok found) (hmem : token ∈ found) (defect : Defect) :
    PointsAt text (token.fault defect) :=
  pointsAt_malformedDirective ((scanned_of_tokensFrom htext).text_ne_nil token hmem)
    (text_isPrefix_of_mem htext hmem) defect

/-- The fault of the scan shows the text from the unclosed mark on. -/
theorem pointsAt_of_tokens_eq_error (htext : tokens text = .error fault) :
    PointsAt text fault := by
  obtain ⟨position, hleast, rfl⟩ := tokensFrom_eq_error_iff.mp htext
  have hopens : openMark <+: text.drop position := hleast.1.1
  have hshown : (text.drop position).take 40 ≠ [] := by
    intro hnone
    rcases List.take_eq_nil_iff.mp hnone with hzero | hrest
    · contradiction
    · rw [hrest] at hopens
      contradiction
  rw [unterminatedFault, Nat.zero_add]
  exact pointsAt_malformedDirective hshown (List.take_prefix _ _) _

/-! ## Faults of host code -/

theorem pointsAt_of_hostCode_eq_error
    {translator : List Char} (hcode : hostCode translator text = .error fault) :
    PointsAt text fault := by
  rcases hostCode_eq_error_cases hcode with htext | ⟨found, htext, token, hmem, defect, rfl⟩
  · exact pointsAt_of_tokens_eq_error htext
  · exact pointsAt_fault_of_mem htext hmem defect

end Stencil.Directive
