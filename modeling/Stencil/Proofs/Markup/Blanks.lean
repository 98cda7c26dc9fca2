import Stencil.Markup.Minify
import Stencil.Proofs.Markup.Reader
import Stencil.Proofs.Text.Spacing

/-!
# Blanks that a reader does not notice

A reader takes a run of blanks for one space.  It does not notice blanks behind a closing angle
bracket or before an opening one, so it goes through a stretch and through the tidied stretch
alike.
-/

namespace Stencil.Markup

open Stencil.Text

def closesTag (c : Char) : Bool := c == '>'

def opensTag (c : Char) : Bool := c == '<'

theorem tighten_eq (stretch : List Char) :
    tighten stretch = tidy closesTag opensTag (remove comment? stretch) :=
  rfl

theorem visible_opensTag : Visible opensTag := by
  intro c hc
  obtain rfl := beq_iff_eq.mp hc
  rfl

namespace Reader

/-! ## Single steps -/

theorem step_blank (reader : Reader) {c : Char} (hblank : isBlank c) :
    reader.step c = reader.step ' ' := by
  have hword : isWord c = false := isWord_eq_false_of_isBlank hblank
  have hspace : isWord ' ' = false := by decide
  have hclose : c ≠ '>' := by
    rintro rfl
    contradiction
  have hopen : c ≠ '<' := by
    rintro rfl
    contradiction
  have hslash : c ≠ '/' := by
    rintro rfl
    contradiction
  cases reader with
  | lost => rfl
  | closed => rfl
  | name spelled => simp [step, stepTag, hword, hspace, hclose]
  | tag spelled => simp [step, stepTag, hclose]
  | content spelled ending =>
      cases ending with
      | text => simp [step, Ending.restart, hopen]
      | bracket => simp [step, Ending.restart, hopen, hslash]
      | name left =>
          cases left with
          | nil =>
              have hblankSpace : isBlank ' ' = true := rfl
              simp [step, hclose, hblank, hblankSpace]
          | cons d left => simp [step, Ending.restart, hword, hspace, hopen]

/-- A space goes unnoticed before what is neither part of a name nor the slash of a closing tag. -/
theorem step_space_step (reader : Reader) {c : Char} (hword : isWord c = false)
    (hslash : c ≠ '/') : (reader.step ' ').step c = reader.step c := by
  have hspace : isWord ' ' = false := by decide
  have hblank : isBlank ' ' = true := rfl
  cases reader with
  | lost => rfl
  | closed => rfl
  | name spelled =>
      by_cases hname : spelled.map foldCase ∈ verbatimNames
      · simp [step, stepTag, hspace, hword, hname]
      · simp [step, hspace, hword, hname]
  | tag spelled => simp [step, stepTag]
  | content spelled ending =>
      cases ending with
      | text => simp [step, Ending.restart]
      | bracket => simp [step, Ending.restart, hslash]
      | name left => cases left <;> simp [step, Ending.restart, hspace, hword, hblank]

/-- Blanks leave the reader where it is. -/
def AtRest (reader : Reader) : Prop :=
  reader.step ' ' = reader

theorem atRest_step (reader : Reader) : (reader.step '>').AtRest := by
  have hbracket : isWord '>' = false := by decide
  rw [AtRest]
  cases reader with
  | lost => rfl
  | closed => rfl
  | name spelled =>
      by_cases hname : spelled.map foldCase ∈ verbatimNames
      · simp [step, stepTag, Ending.restart, hbracket, hname]
      · simp [step, hbracket, hname]
  | tag spelled => simp [step, stepTag, Ending.restart]
  | content spelled ending =>
      cases ending with
      | text => simp [step, Ending.restart]
      | bracket => simp [step, Ending.restart]
      | name left => cases left <;> simp [step, Ending.restart, hbracket]

/-! ## Runs of blanks -/

theorem AtRest.read_blanks
    {reader : Reader} (hrest : reader.AtRest) {gap : List Char} (hgap : AllBlank gap)
    (text : List Char) : reader.read (gap ++ text) = reader.read text := by
  induction gap with
  | nil => rfl
  | cons c gap ih =>
      obtain ⟨hc, hlater⟩ := List.forall_mem_cons.mp hgap
      rw [List.cons_append, read_cons, step_blank reader hc, hrest, ih hlater]

theorem read_blanks_bracket
    (reader : Reader) {gap : List Char} (hgap : AllBlank gap) (text : List Char) :
    reader.read (gap ++ '<' :: text) = reader.read ('<' :: text) := by
  induction gap generalizing reader with
  | nil => rfl
  | cons c gap ih =>
      obtain ⟨hc, hlater⟩ := List.forall_mem_cons.mp hgap
      rw [List.cons_append, read_cons, ih _ hlater, read_cons, step_blank reader hc,
        step_space_step reader (by decide) (by decide), read_cons]

/-! ## A tidied stretch -/

theorem read_collapseFrom (reader : Reader) (text : List Char) :
    reader.read (collapseFrom false text) = reader.read text ∧
      (reader.step ' ').read (collapseFrom true text) = (reader.step ' ').read text := by
  induction text generalizing reader with
  | nil => exact ⟨rfl, rfl⟩
  | cons c rest ih =>
      rw [collapseFrom, collapseFrom]
      by_cases hblank : isBlank c
      · rw [if_pos hblank, if_neg Bool.false_ne_true, if_pos hblank, if_pos rfl, read_cons,
          read_cons, read_cons, step_blank reader hblank, step_blank (reader.step ' ') hblank,
          step_space_step reader (by decide) (by decide)]
        exact ⟨(ih reader).2, (ih reader).2⟩
      · rw [if_neg hblank, if_neg hblank, read_cons, read_cons, read_cons, read_cons]
        exact ⟨(ih _).1, (ih _).1⟩

theorem read_dropAfterFrom (reader : Reader) (text : List Char) :
    reader.read (dropAfterFrom closesTag false text) = reader.read text ∧
      (reader.step '>').read (dropAfterFrom closesTag true text) =
        (reader.step '>').read text := by
  induction text generalizing reader with
  | nil => exact ⟨rfl, rfl⟩
  | cons c rest ih =>
      have hkept (before : Reader) :
          (before.step c).read (dropAfterFrom closesTag (closesTag c) rest) =
            (before.step c).read rest := by
        by_cases hc : c = '>'
        · subst hc
          exact (ih before).2
        · have hclass : closesTag c = false := by simpa [closesTag] using hc
          rw [hclass]
          exact (ih _).1
      rw [dropAfterFrom, dropAfterFrom, Bool.false_and, if_neg Bool.false_ne_true, Bool.true_and]
      refine ⟨hkept reader, ?_⟩
      by_cases hblank : isBlank c
      · have hrest : (reader.step '>').step ' ' = reader.step '>' := atRest_step reader
        rw [if_pos hblank, read_cons, step_blank _ hblank, hrest]
        exact (ih reader).2
      · rw [if_neg hblank]
        exact hkept _

theorem read_dropBlanksBefore (reader : Reader) (text : List Char) :
    reader.read (dropBlanksBefore opensTag text) = reader.read text := by
  induction text generalizing reader with
  | nil => rfl
  | cons c rest ih =>
      rw [dropBlanksBefore]
      split
      next hdropped =>
        rw [Bool.and_eq_true] at hdropped
        obtain ⟨gap, d, later, hgap, hd, rfl⟩ := exists_of_leadsTo hdropped.2
        obtain rfl := beq_iff_eq.mp hd
        have hrun : AllBlank (c :: gap) := List.forall_mem_cons.mpr ⟨hdropped.1, hgap⟩
        rw [ih, read_blanks_bracket reader hgap, ← List.cons_append,
          read_blanks_bracket reader hrun]
      next => exact ih _

theorem read_tidy (reader : Reader) (text : List Char) :
    reader.read (tidy closesTag opensTag text) = reader.read text := by
  rw [tidy, read_dropBlanksBefore, dropBlanksAfter, (read_dropAfterFrom reader _).1, collapse,
    (read_collapseFrom reader text).1]

end Reader

end Stencil.Markup
