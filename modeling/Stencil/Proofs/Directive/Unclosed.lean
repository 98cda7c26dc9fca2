import Stencil.Proofs.Directive.Partition
import Stencil.Proofs.Except
import Mathlib.Data.Nat.Find
import Mathlib.Order.Bounds.Basic

/-!
# Opening marks that are never closed

A scan fails exactly when an opening mark stands in the text behind which no closing mark stands,
and its fault names the first such mark.  Quotes play no part in this, although they decide where
the directives before it end.

A directive that is passed over ends with a closing mark, so every opening mark before its end is
closed: what is unclosed in the text is what is unclosed in the rest of it.
-/

namespace Stencil.Directive

open Stencil.Text

/-- An opening mark stands at the position, and no closing mark stands anywhere behind it. -/
def UnclosedAt (text : List Char) (position : Nat) : Prop :=
  openMark <+: text.drop position ∧ ¬ closeMark <:+: text.drop (position + 2)

instance (text : List Char) (position : Nat) : Decidable (UnclosedAt text position) :=
  inferInstanceAs (Decidable (_ ∧ _))

theorem UnclosedAt.isInfix {text : List Char} {position : Nat} (hat : UnclosedAt text position) :
    openMark <:+: text :=
  hat.1.isInfix.trans (List.drop_suffix position text).isInfix

/-! ## Passing over a directive -/

/-- Up to a closing mark every opening mark is closed. -/
theorem UnclosedAt.length_le
    {front rest : List Char} {position : Nat}
    (hat : UnclosedAt (front ++ closeMark ++ rest) position) :
    (front ++ closeMark).length ≤ position := by
  induction front generalizing position with
  | nil =>
      match position, hat with
      | 0, hat => exact absurd hat.1 (by simp [openMark, closeMark])
      | 1, hat => exact absurd hat.1 (by simp [openMark, closeMark])
      | position + 2, _ => simp [closeMark]
  | cons c front ih =>
      cases position with
      | succ position =>
          have hlater : (front ++ closeMark).length ≤ position := ih hat
          simp only [List.cons_append, List.length_cons] at hlater ⊢
          omega
      | zero =>
          exfalso
          cases front with
          | nil => exact absurd hat.1 (by simp [openMark, closeMark])
          | cons d front =>
              apply hat.2
              have hdrop : (c :: d :: front ++ closeMark ++ rest).drop (0 + 2) =
                  front ++ closeMark ++ rest := rfl
              rw [hdrop]
              exact List.infix_append front closeMark rest

theorem unclosedAt_append_add_iff {front rest : List Char} {position : Nat} :
    UnclosedAt (front ++ rest) (front.length + position) ↔ UnclosedAt rest position := by
  rw [UnclosedAt, UnclosedAt, Nat.add_assoc, List.drop_length_add_append,
    List.drop_length_add_append]

/-- The first unclosed mark behind a closing mark is the first one of all. -/
theorem isLeast_unclosedAt_append_iff
    {front rest : List Char} (hfront : closeMark <:+ front) {position : Nat} :
    IsLeast {place | UnclosedAt (front ++ rest) place} position ↔
      ∃ later, position = front.length + later ∧
        IsLeast {place | UnclosedAt rest place} later := by
  have hbound : ∀ place, UnclosedAt (front ++ rest) place → front.length ≤ place := by
    obtain ⟨before, rfl⟩ := hfront
    exact fun place hplace => hplace.length_le
  constructor
  · rintro ⟨hat, hleast⟩
    obtain ⟨later, rfl⟩ := Nat.exists_eq_add_of_le (hbound position hat)
    refine ⟨later, rfl, unclosedAt_append_add_iff.mp hat, ?_⟩
    intro place hplace
    have hle := hleast (unclosedAt_append_add_iff.mpr hplace)
    exact Nat.le_of_add_le_add_left hle
  · rintro ⟨later, rfl, hat, hleast⟩
    refine ⟨unclosedAt_append_add_iff.mpr hat, ?_⟩
    intro place hplace
    obtain ⟨between, rfl⟩ := Nat.exists_eq_add_of_le (hbound place hplace)
    exact Nat.add_le_add_left (hleast (unclosedAt_append_add_iff.mp hplace)) front.length

/-! ## The first opening mark -/

theorem innermost?_eq_none_iff {text : List Char} :
    innermost? text = none ↔ ¬ closeMark <:+: text.drop 2 := by
  rw [← isSome_closePosition?_iff, Bool.not_eq_true, Option.isSome_eq_false_iff,
    Option.isNone_iff_eq_none]
  constructor
  · intro hnone
    by_contra hsome
    obtain ⟨close, hclose⟩ := Option.ne_none_iff_exists'.mp hsome
    rw [innermost?, hclose, Option.bind_eq_bind, Option.bind_some] at hnone
    split at hnone
    next => contradiction
    next inner hinner =>
      obtain ⟨second, hsecond⟩ :=
        Option.isSome_iff_exists.mp (isSome_closePosition?_inner hclose hinner)
      rw [hsecond] at hnone
      contradiction
  · intro hclose
    rw [innermost?, hclose]
    rfl

theorem isLeast_unclosedAt_of_indexOf?
    {text : List Char} {mark : Nat} (hmark : indexOf? openMark text = some mark)
    (hspan : innermost? (text.drop mark) = none) :
    IsLeast {place | UnclosedAt text place} mark := by
  rw [innermost?_eq_none_iff, List.drop_drop] at hspan
  refine ⟨⟨prefix_drop_of_indexOf? hmark, hspan⟩, ?_⟩
  intro place hplace
  by_contra hbefore
  exact not_prefix_drop_of_lt_indexOf? hmark (Nat.lt_of_not_le hbefore) hplace.1

/-! ## The scan -/

/-- The fault of a text, with the given number of characters before it, whose first unclosed mark
stands at the position. -/
def unterminatedFault (start : Nat) (text : List Char) (position : Nat) : TemplateFault :=
  .malformedDirective ((text.drop position).take 40) .unterminated (some (start + position : Nat))

theorem tokensFrom_eq_error_iff {start : Nat} {text : List Char} {fault : TemplateFault} :
    tokensFrom start text = .error fault ↔
      ∃ position, IsLeast {place | UnclosedAt text place} position ∧
        fault = unterminatedFault start text position := by
  induction start, text using scan_induction with
  | plain start text hmark =>
      have hnot : ¬ openMark <:+: text := by
        rw [← isSome_indexOf?_iff, hmark]
        exact Bool.false_ne_true
      rw [tokensFrom_of_none hmark]
      constructor
      · intro hfault
        contradiction
      · rintro ⟨position, hleast, -⟩
        exact absurd hleast.1.isInfix hnot
  | unterminated start text mark hmark hspan =>
      have hleast := isLeast_unclosedAt_of_indexOf? hmark hspan
      rw [tokensFrom_of_unterminated hmark hspan, Except.error.injEq]
      constructor
      · rintro rfl
        exact ⟨mark, hleast, rfl⟩
      · rintro ⟨position, hposition, rfl⟩
        rw [hposition.unique hleast]
        rfl
  | step start text next rest hstep ih =>
      obtain ⟨before, directive, rfl, hmarked, rfl, hlater⟩ := hstep.exists_eq_append
      have hclosed : closeMark <:+ before ++ directive :=
        hmarked.ends.trans (List.suffix_append before directive)
      have hpassed (position : Nat) :
          unterminatedFault (start + before.length + directive.length) rest position =
            unterminatedFault start (before ++ directive ++ rest)
              ((before ++ directive).length + position) := by
        rw [unterminatedFault, unterminatedFault, List.drop_length_add_append, List.length_append]
        simp only [Nat.add_assoc]
      rw [hlater, map_eq_error_iff, ih]
      simp only [isLeast_unclosedAt_append_iff hclosed, hpassed]
      constructor
      · rintro ⟨later, hleast, rfl⟩
        exact ⟨_, ⟨later, rfl, hleast⟩, rfl⟩
      · rintro ⟨_, ⟨later, rfl, hleast⟩, rfl⟩
        exact ⟨later, hleast, rfl⟩

/-- A scan fails exactly when an opening mark is never closed, and its only fault is that the first
such mark is unterminated. -/
theorem tokens_eq_error_iff_unclosed (text : List Char) :
    ((∃ fault, tokens text = .error fault) ↔ ∃ position, UnclosedAt text position) ∧
      ∀ fault, tokens text = .error fault ↔
        ∃ position, IsLeast {place | UnclosedAt text place} position ∧
          fault = .malformedDirective ((text.drop position).take 40) .unterminated
            (some (position : Nat)) := by
  have hfault (fault : TemplateFault) : tokens text = .error fault ↔
      ∃ position, IsLeast {place | UnclosedAt text place} position ∧
        fault = .malformedDirective ((text.drop position).take 40) .unterminated
          (some (position : Nat)) := by
    have hscan := @tokensFrom_eq_error_iff 0 text fault
    simp only [unterminatedFault, Nat.zero_add] at hscan
    exact hscan
  refine ⟨⟨?_, ?_⟩, hfault⟩
  · rintro ⟨fault, hfailed⟩
    obtain ⟨position, hleast, -⟩ := (hfault fault).mp hfailed
    exact ⟨position, hleast.1⟩
  · rintro ⟨position, hat⟩
    have hleast : IsLeast {place | UnclosedAt text place} (Nat.find ⟨position, hat⟩) :=
      ⟨Nat.find_spec _, fun place hplace => Nat.find_min' _ hplace⟩
    exact ⟨_, (hfault _).mpr ⟨_, hleast, rfl⟩⟩

/-- The quote in the first directive is closed behind the second mark only, which helps neither. -/
example : tokens (marked " \"" ++ openMark ++ ['"']) =
    .error (.malformedDirective (openMark ++ ['"']) .unterminated (some 6)) := by
  decide +kernel

end Stencil.Directive
