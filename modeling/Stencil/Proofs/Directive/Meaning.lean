import Stencil.Directive.Meaning
import Stencil.Proofs.Text.Blank
import Stencil.Proofs.Text.Search

/-!
# The meaning of a directive

A directive always means something else than plain text.  The expression, literal or name that it
carries is a part of its own text.
-/

namespace Stencil.Directive

open Stencil.Text

/-! ## What a directive carries -/

theorem bodyOf_isInfix (raw : List Char) : bodyOf raw <:+: raw := by
  have hbody : bodyOf raw <+: raw.drop openMark.length := List.take_prefix _ _
  exact hbody.isInfix.trans (List.drop_suffix _ _).isInfix

theorem argument_keywordMeaning_isInfix (body : List Char) :
    (keywordMeaning body).argument <:+: body := by
  have hrest : skipBlanks (body.drop (body.takeWhile (!isBlank ·)).length) <:+: body :=
    ((skipBlanks_suffix _).trans (List.drop_suffix _ _)).isInfix
  unfold keywordMeaning
  dsimp only
  split_ifs
  all_goals first | exact List.nil_infix | exact hrest

theorem argument_blockTag?_isInfix
    {body : List Char} {meaning : Meaning} (htag : blockTag? body = some meaning) :
    meaning.argument <:+: body := by
  unfold blockTag? at htag
  split at htag
  next rest hopen =>
    rw [Option.ite_none_left_eq_some, Option.map_eq_some_iff] at htag
    obtain ⟨_, attributes, _, rfl⟩ := htag
    have hname : rest.takeWhile isBlockNameChar <+: rest := List.takeWhile_prefix _
    exact hname.isInfix.trans (suffix_of_after? hopen).isInfix
  next =>
    split at htag
    next name hclose =>
      rw [Option.ite_none_right_eq_some, Option.some.injEq] at htag
      obtain ⟨_, rfl⟩ := htag
      exact (suffix_of_after? hclose).isInfix
    next => contradiction

theorem argument_plainMeaning_isInfix (body : List Char) :
    (plainMeaning body).argument <:+: body := by
  unfold plainMeaning
  split
  next rest hvar =>
    dsimp only
    split
    · exact (trim_isInfix rest).trans (suffix_of_after? hvar).isInfix
    · exact List.nil_infix
  next =>
    cases htag : blockTag? body with
    | none => exact argument_keywordMeaning_isInfix body
    | some meaning => exact argument_blockTag?_isInfix htag

theorem argument_translatedMeaning_isInfix (body : List Char) :
    (translatedMeaning body).argument <:+: body := by
  unfold translatedMeaning
  split
  next rest hvar =>
    dsimp only
    split
    · exact (trim_isInfix rest).trans (suffix_of_after? hvar).isInfix
    · exact List.nil_infix
  next =>
    split
    · exact List.infix_rfl
    · exact List.nil_infix

theorem argument_meaningOf_isInfix (raw : List Char) : (meaningOf raw).argument <:+: raw := by
  unfold meaningOf
  split
  next rest hbody =>
    have hrest : rest <:+: raw := by
      have hsuffix : rest <:+ '_' :: rest := List.suffix_cons '_' rest
      rw [← hbody] at hsuffix
      exact hsuffix.isInfix.trans (bodyOf_isInfix raw)
    exact (argument_translatedMeaning_isInfix _).trans ((trim_isInfix rest).trans hrest)
  next =>
    exact (argument_plainMeaning_isInfix _).trans ((trim_isInfix _).trans (bodyOf_isInfix raw))

/-! ## A directive is no plain text -/

theorem blockTag?_ne_text {body : List Char} : blockTag? body ≠ some .text := by
  intro htag
  unfold blockTag? at htag
  split at htag
  next rest hopen =>
    simp only [Option.ite_none_left_eq_some, Option.map_eq_some_iff] at htag
    obtain ⟨_, attributes, _, hmeaning⟩ := htag
    contradiction
  next hopen =>
    split at htag
    next name hclose => simp at htag
    next => contradiction

theorem keywordMeaning_ne_text (body : List Char) : keywordMeaning body ≠ .text := by
  intro hmeaning
  simp only [keywordMeaning] at hmeaning
  split_ifs at hmeaning

theorem meaningOf_ne_text (raw : List Char) : meaningOf raw ≠ .text := by
  unfold meaningOf
  split
  next rest =>
    unfold translatedMeaning
    split
    next =>
      dsimp only
      split <;> simp
    next => split <;> simp
  next body =>
    unfold plainMeaning
    split
    next =>
      dsimp only
      split <;> simp
    next =>
      cases htag : blockTag? (trim (bodyOf raw)) with
      | none => exact keywordMeaning_ne_text _
      | some meaning =>
          intro htext
          rw [Option.getD_some] at htext
          rw [htext] at htag
          exact blockTag?_ne_text htag

end Stencil.Directive
