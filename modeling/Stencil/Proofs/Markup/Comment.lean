import Stencil.Proofs.Markup.Blanks
import Stencil.Proofs.Text.Search

/-!
# Ordinary comments

Blanks before a stretch stand apart from the comments in it.  What follows a comment does not make
it another one.
-/

namespace Stencil.Markup

open Stencil.Text

theorem remove_eq_self_of_hits {text : List Char} (hhits : hits comment? text = []) :
    remove comment? text = text := by
  have hlengths := length_remove_add_hits comment? text
  rw [hhits, List.flatten_nil, List.length_nil, Nat.add_zero] at hlengths
  exact (remove_sublist comment? text).eq_of_length hlengths

theorem length_remove_le (stretch : List Char) :
    (remove comment? stretch).length ≤ stretch.length :=
  (remove_sublist comment? stretch).length_le

theorem comment?_eq_none_of_ne {c : Char} (hc : c ≠ '<') (rest : List Char) :
    comment? (c :: rest) = none := by
  have hafter : after? "<!--".toList (c :: rest) = none := if_neg (Ne.symm hc)
  rw [comment?, hafter]
  rfl

theorem remove_blanks_append {gap : List Char} (hgap : AllBlank gap) (text : List Char) :
    remove comment? (gap ++ text) = gap ++ remove comment? text := by
  have hidle : Idle comment? gap text := by
    intro tail htail hnonempty
    obtain ⟨c, rest, rfl⟩ := List.exists_cons_of_ne_nil hnonempty
    apply comment?_eq_none_of_ne
    rintro rfl
    exact absurd (hgap '<' (htail.subset List.mem_cons_self)) (by decide)
  rw [remove, cut, cutFrom_append_of_idle hidle, List.append_nil,
    flatMap_cutFrom fun _ => rfl, List.reverse_reverse]
  rfl

theorem exists_remove_skipBlanks (stretch : List Char) :
    ∃ lead, AllBlank lead ∧
      remove comment? stretch = lead ++ remove comment? (skipBlanks stretch) := by
  obtain ⟨lead, hlead, -, hstretch⟩ := exists_eq_append_skipBlanks stretch
  refine ⟨lead, hlead, ?_⟩
  rw [← remove_blanks_append hlead, ← hstretch]

/-- What may stand behind the beginning of an ordinary comment. -/
structure IsCommentRest (rest : List Char) : Prop where
  ordinary : ¬ ['['] <+: rest
  declares : ¬ ['<', '!'] <+: rest
  ends : ['-', '-', '>'] <:+: rest

theorem isSome_comment?_iff {text : List Char} :
    (comment? text).isSome ↔ ∃ rest, text = ['<', '!', '-', '-'] ++ rest ∧ IsCommentRest rest := by
  have hmark : "<!--".toList = ['<', '!', '-', '-'] := rfl
  have hend : "-->".toList = ['-', '-', '>'] := rfl
  constructor
  · intro hsome
    cases hafter : after? ['<', '!', '-', '-'] text with
    | none =>
        rw [comment?, hmark, hafter] at hsome
        contradiction
    | some rest =>
        rw [comment?, hmark, hafter] at hsome
        simp only [Option.bind_eq_bind, Option.bind_some, Bool.or_eq_true,
          List.isPrefixOf_iff_prefix] at hsome
        split at hsome
        next => contradiction
        next hordinary =>
          rw [not_or] at hordinary
          refine ⟨rest, after?_eq_some_iff.mp hafter, hordinary.1, hordinary.2, ?_⟩
          rw [← isSome_indexOf?_iff, ← hend]
          cases hindex : indexOf? "-->".toList rest with
          | none =>
              rw [hindex] at hsome
              contradiction
          | some width => rfl
  · rintro ⟨rest, rfl, hrest⟩
    have hafter : after? ['<', '!', '-', '-'] (['<', '!', '-', '-'] ++ rest) = some rest :=
      after?_eq_some_iff.mpr rfl
    obtain ⟨width, hwidth⟩ := Option.isSome_iff_exists.mp (isSome_indexOf?_iff.mpr hrest.ends)
    rw [comment?, hmark, hafter, hend]
    simp only [Option.bind_eq_bind, Option.bind_some, Bool.or_eq_true,
      List.isPrefixOf_iff_prefix]
    rw [if_neg (not_or.mpr ⟨hrest.ordinary, hrest.declares⟩), hwidth]
    rfl

theorem IsCommentRest.append {rest : List Char} (hrest : IsCommentRest rest)
    (behind : List Char) : IsCommentRest (rest ++ behind) := by
  have hlength : 3 ≤ rest.length := hrest.ends.length_le
  refine ⟨fun hordinary => hrest.ordinary ?_, fun hdeclares => hrest.declares ?_, ?_⟩
  · exact List.prefix_of_prefix_length_le hordinary (List.prefix_append _ _)
      (by simp only [List.length_singleton]; omega)
  · exact List.prefix_of_prefix_length_le hdeclares (List.prefix_append _ _)
      (by simp only [List.length_cons, List.length_nil]; omega)
  · exact hrest.ends.trans (List.prefix_append _ _).isInfix

/-- Tidying keeps the mark of a comment behind its bracket as it is. -/
theorem kept_of_mem_mark {c : Char} (hc : c ∈ ['!', '-', '-']) :
    isBlank c = false ∧ closesTag c = false ∧ opensTag c = false := by
  have hmark : ∀ d ∈ ['!', '-', '-'],
      isBlank d = false ∧ closesTag d = false ∧ opensTag d = false := by
    rw [List.forall_mem_cons, List.forall_mem_cons, List.forall_mem_singleton]
    decide
  exact hmark c hc

end Stencil.Markup
