import Stencil.Proofs.Markup.Written

/-!
# Minifying markup again

If removing the comments makes no element, the small form of a document is made smaller only where
a comment has come together from its parts, or where a blank that stood behind a comment now stands
behind an element.
-/

namespace Stencil.Markup

open Stencil.Text

variable {pieces : List (Piece Unit)}

/-! ## Writing again -/

theorem length_trimEnd_le (text : List Char) : (trimEnd text).length ≤ text.length :=
  (trimEnd_isPrefix text).length_le

theorem length_tighten_le (stretch : List Char) :
    (tighten stretch).length ≤ (remove comment? stretch).length :=
  length_tidy_le _

theorem length_writtenStretch_le (first : Bool) (stretch : List Char) :
    (writtenStretch first stretch).length ≤ (remove comment? stretch).length := by
  cases first with
  | true =>
      calc
        (trim (tighten stretch)).length ≤ (tighten stretch).length :=
          (trim_isInfix _).length_le
        _ ≤ (remove comment? stretch).length := length_tighten_le stretch
  | false =>
      obtain ⟨lead, -, hremove⟩ := exists_remove_skipBlanks stretch
      calc
        (trimEnd (tighten (skipBlanks stretch))).length ≤ (tighten (skipBlanks stretch)).length :=
          length_trimEnd_le _
        _ ≤ (remove comment? (skipBlanks stretch)).length := length_tighten_le _
        _ ≤ (remove comment? stretch).length := by
          rw [hremove, List.length_append]
          omega

theorem tidy_writtenStretch (first : Bool) (stretch : List Char) :
    Tidy closesTag opensTag (writtenStretch first stretch) := by
  have htidy (text : List Char) : Tidy closesTag opensTag (tighten text) :=
    tidy_tidy visible_opensTag rfl _
  cases first with
  | true => exact Tidy.of_infix (htidy stretch) (trim_isInfix _)
  | false => exact Tidy.of_infix (htidy (skipBlanks stretch)) (trimEnd_isPrefix _).isInfix

/-- A written stretch is written again as it is if it holds no comment and begins with no blank. -/
theorem writtenStretch_writtenStretch_iff (first : Bool) (stretch : List Char) :
    writtenStretch first (writtenStretch first stretch) = writtenStretch first stretch ↔
      NoBlankFirst (writtenStretch first stretch) ∧
        hits comment? (writtenStretch first stretch) = [] := by
  have htidy := tidy_writtenStretch first stretch
  have hedges : first = true → NoBlankFirst (writtenStretch first stretch) := by
    rintro rfl
    exact noBlankFirst_of_prefix (noBlankFirst_skipBlanks _) (trimEnd_isPrefix _)
  have htrimmed : trimEnd (writtenStretch first stretch) = writtenStretch first stretch := by
    cases first <;> exact trimEnd_trimEnd _
  generalize writtenStretch first stretch = written at htidy hedges htrimmed ⊢
  constructor
  · intro hagain
    have hlength := length_writtenStretch_le first written
    rw [hagain] at hlength
    have hhits : hits comment? written = [] := by
      by_contra hhits
      have hshorter := length_remove_lt hhits
      omega
    refine ⟨?_, hhits⟩
    cases first with
    | true => exact hedges rfl
    | false =>
        have hskipped : written.length ≤ (skipBlanks written).length :=
          calc
            written.length = (trimEnd (tighten (skipBlanks written))).length :=
              congrArg List.length hagain.symm
            _ ≤ (tighten (skipBlanks written)).length := length_trimEnd_le _
            _ ≤ (remove comment? (skipBlanks written)).length := length_tighten_le _
            _ ≤ (skipBlanks written).length := length_remove_le _
        rw [← (skipBlanks_suffix written).eq_of_length_le hskipped]
        exact noBlankFirst_skipBlanks written
  · rintro ⟨hfirst, hhits⟩
    have htighten : tighten written = written := by
      rw [tighten_eq, remove_eq_self_of_hits hhits, htidy.tidy_eq_self rfl]
    cases first with
    | true =>
        rw [writtenStretch, if_pos rfl, htighten, trim, skipBlanks_of_noBlankFirst hfirst, htrimmed]
    | false =>
        rw [writtenStretch, if_neg Bool.false_ne_true, skipBlanks_of_noBlankFirst hfirst, htighten,
          htrimmed]

theorem length_writtenPieces_le (first : Bool) (pieces : List (Piece Unit)) :
    (joined (writtenPieces first pieces)).length ≤ (joined pieces).length := by
  induction pieces generalizing first with
  | nil => exact le_rfl
  | cons piece pieces ih =>
      cases piece with
      | plain stretch =>
          have hhere := (length_writtenStretch_le first stretch).trans (length_remove_le stretch)
          have hlater := ih first
          simp only [writtenPieces, joined_plain, List.length_append]
          omega
      | hit found value =>
          have hlater := ih false
          simp only [writtenPieces, joined_hit, List.length_append]
          omega

/-- No stretch can grow, so a document that is written again as it is has all its stretches
written again as they are. -/
theorem joined_writtenPieces_iff (first : Bool) (pieces : List (Piece Unit)) :
    joined (writtenPieces first (writtenPieces first pieces)) =
        joined (writtenPieces first pieces) ↔
      ∀ stretch, .plain stretch ∈ writtenPieces first pieces →
        NoBlankFirst stretch ∧ hits comment? stretch = [] := by
  induction pieces generalizing first with
  | nil => simp [writtenPieces]
  | cons piece pieces ih =>
      cases piece with
      | hit found value =>
          simp only [writtenPieces, joined_hit, List.append_cancel_left_eq, ih, List.mem_cons,
            reduceCtorEq, false_or]
      | plain stretch =>
          simp only [writtenPieces, joined_plain, List.mem_cons, Piece.plain.injEq,
            forall_eq_or_imp, ← writtenStretch_writtenStretch_iff, ← ih]
          constructor
          · intro hjoined
            have hhere := (length_writtenStretch_le first (writtenStretch first stretch)).trans
              (length_remove_le _)
            have hlater := length_writtenPieces_le first (writtenPieces first pieces)
            have hlengths := congrArg List.length hjoined
            rw [List.length_append, List.length_append] at hlengths
            exact List.append_inj hjoined (by omega)
          · rintro ⟨hhere, hlater⟩
            rw [hhere, hlater]

/-! ## Minifying twice -/

theorem minify_minify_eq
    {document : List Char}
    (hfound : cut verbatimElement? (joined (uncommented document)) = uncommented document) :
    minify (minify document) =
      joined (writtenPieces true (writtenPieces true (cut verbatimElement? document))) := by
  rw [minify_eq, cut_minify hfound]

/-- If removing comments makes no element, a document is minified at once exactly when no stretch
of it is written with a comment in it or with a blank behind an element. -/
theorem minify_minify_eq_iff_of_found
    (document : List Char)
    (hfound : cut verbatimElement? (joined (uncommented document)) = uncommented document) :
    minify (minify document) = minify document ↔
      ∀ stretch, .plain stretch ∈ writtenPieces true (cut verbatimElement? document) →
        NoBlankFirst stretch ∧ hits comment? stretch = [] := by
  rw [minify_minify_eq hfound, minify_eq]
  exact joined_writtenPieces_iff true _

theorem minify_minify_eq_iff_of_found_spaced :
    cut verbatimElement? (joined (uncommented "<p> a <!-- b --> </p> <pre> c\n</pre> <i>".toList)) =
        uncommented "<p> a <!-- b --> </p> <pre> c\n</pre> <i>".toList ∧
      (minify (minify "<p> a <!-- b --> </p> <pre> c\n</pre> <i>".toList) =
          minify "<p> a <!-- b --> </p> <pre> c\n</pre> <i>".toList ↔
        ∀ stretch, .plain stretch ∈ writtenPieces true
            (cut verbatimElement? "<p> a <!-- b --> </p> <pre> c\n</pre> <i>".toList) →
          NoBlankFirst stretch ∧ hits comment? stretch = []) :=
  ⟨by decide +kernel, minify_minify_eq_iff_of_found _ (by decide +kernel)⟩

/-- The comment keeps the blank from touching the element until the comment is gone. -/
theorem minify_minify_ne_of_comment :
    minify (minify "<pre>a</pre><!-- b --> c".toList) ≠
      minify "<pre>a</pre><!-- b --> c".toList := by
  decide +kernel

end Stencil.Markup
