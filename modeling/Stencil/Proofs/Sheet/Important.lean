import Stencil.Sheet.Minify
import Stencil.Proofs.Text.Blank
import Stencil.Proofs.Text.Pieces
import Stencil.Proofs.Text.Word

/-!
# The mark of importance

Blanks between an exclamation mark and the word for importance disappear.  Everything else is kept,
so that what is proved for one such mark is proved for a stretch by going along it.
-/

namespace Stencil.Sheet

open Stencil.Text

/-- An exclamation mark and the word for importance with blanks between them. -/
def SpacedImportant (text : List Char) : Prop :=
  ∃ gap spelled, gap ≠ [] ∧ AllBlank gap ∧ Spells importantWord spelled ∧
    text = '!' :: (gap ++ spelled)

theorem SpacedImportant.ne_nil {text : List Char} (hspaced : SpacedImportant text) : text ≠ [] := by
  obtain ⟨gap, spelled, -, -, -, rfl⟩ := hspaced
  exact List.cons_ne_nil _ _

theorem noBlankFirst_of_spells_important
    {spelled : List Char} (hspells : Spells importantWord spelled) (behind : List Char) :
    NoBlankFirst (spelled ++ behind) := by
  obtain ⟨c, later, rfl, hword⟩ := hspells.exists_cons (by decide) (by decide)
  exact noBlankFirst_cons (isBlank_eq_false_of_isWord hword)

theorem spacedImportant?_append
    {found : List Char} (hspaced : SpacedImportant found) (behind : List Char) :
    spacedImportant? (found ++ behind) = some ⟨found.length, ()⟩ := by
  obtain ⟨gap, spelled, hgap, hblank, hspells, rfl⟩ := hspaced
  have hwidth : blankWidth (gap ++ (spelled ++ behind)) = gap.length :=
    blankWidth_append hblank (noBlankFirst_of_spells_important hspells behind)
  have hpositive : ¬ (gap.length == 0) = true := by simpa using hgap
  have hword : afterWord? importantWord (spelled ++ behind) = some behind :=
    afterWord?_eq_some_iff.mpr ⟨spelled, hspells, rfl⟩
  rw [List.cons_append, List.append_assoc]
  simp only [spacedImportant?, hwidth, if_neg hpositive, List.drop_left, hword, Option.map_some,
    List.length_cons, List.length_append, hspells.length_eq]
  congr 2
  omega

theorem exists_spacedImportant_of_spacedImportant?
    {text : List Char} {hit : Hit Unit} (hsome : spacedImportant? text = some hit) :
    ∃ found behind, SpacedImportant found ∧ text = found ++ behind := by
  unfold spacedImportant? at hsome
  split at hsome
  next rest =>
    simp only [Option.ite_none_left_eq_some, beq_iff_eq, Option.map_eq_some_iff] at hsome
    obtain ⟨hpositive, behind, hafter, -⟩ := hsome
    obtain ⟨spelled, hspells, hdrop⟩ := afterWord?_eq_some_iff.mp hafter
    obtain ⟨gap, hblank, hlength, hrest⟩ := exists_eq_append_skipBlanks rest
    have hgap : gap ≠ [] := by
      rintro rfl
      exact hpositive hlength.symm
    have hskip : skipBlanks rest = spelled ++ behind := by
      rw [← hdrop, ← hlength]
      nth_rewrite 2 [hrest]
      exact List.drop_left.symm
    refine ⟨'!' :: (gap ++ spelled), behind, ⟨gap, spelled, hgap, hblank, hspells, rfl⟩, ?_⟩
    rw [List.cons_append, List.append_assoc, ← hskip, ← hrest]
  next => contradiction

def joinImportant (stretch : List Char) : List Char :=
  substitute spacedImportant? (fun _ _ => '!' :: importantWord) stretch

theorem tighten_eq (stretch : List Char) :
    tighten stretch =
      dropIdleSemicolons (joinImportant
        (dropBlanksBefore isPunctuation (dropBlanksAfter isPunctuation (collapse stretch)))) :=
  rfl

theorem joinImportant_nil : joinImportant [] = [] :=
  substitute_nil

theorem joinImportant_cons_of_none
    {c : Char} {rest : List Char} (hnone : spacedImportant? (c :: rest) = none) :
    joinImportant (c :: rest) = c :: joinImportant rest :=
  substitute_cons_of_none hnone

theorem joinImportant_append
    {found : List Char} (hspaced : SpacedImportant found) (behind : List Char) :
    joinImportant (found ++ behind) = '!' :: importantWord ++ joinImportant behind :=
  substitute_append_of_some hspaced.ne_nil (spacedImportant?_append hspaced behind)

/-- A stretch is joined from the left, character by character and mark by mark. -/
theorem joinImportant_induction
    {motive : List Char → List Char → Prop} (hnil : motive [] [])
    (hkeep : ∀ c rest, spacedImportant? (c :: rest) = none → motive rest (joinImportant rest) →
      motive (c :: rest) (c :: joinImportant rest))
    (hjoin : ∀ found behind, SpacedImportant found → motive behind (joinImportant behind) →
      motive (found ++ behind) ('!' :: importantWord ++ joinImportant behind))
    (stretch : List Char) : motive stretch (joinImportant stretch) := by
  induction hlength : stretch.length using Nat.strong_induction_on generalizing stretch with
  | _ length ih =>
      subst hlength
      cases stretch with
      | nil =>
          rw [joinImportant_nil]
          exact hnil
      | cons c rest =>
          cases hhere : spacedImportant? (c :: rest) with
          | none =>
              rw [joinImportant_cons_of_none hhere]
              exact hkeep c rest hhere (ih _ (Nat.lt_succ_self _) rest rfl)
          | some hit =>
              obtain ⟨found, behind, hspaced, heq⟩ :=
                exists_spacedImportant_of_spacedImportant? hhere
              have hpositive := List.length_pos_iff.mpr hspaced.ne_nil
              have hshorter : behind.length < (c :: rest).length := by
                rw [heq, List.length_append]
                omega
              rw [heq, joinImportant_append hspaced]
              exact hjoin found behind hspaced (ih _ hshorter behind rfl)

end Stencil.Sheet
