import Stencil.Text.Fold
import Stencil.Text.Numeric
import Mathlib.Tactic.Common

/-!
# Words without regard to case

A text spells a word of small ASCII letters if its characters stand for the letters of the word.
All characters that stand for a letter belong to words, also the few that are no ASCII letters
themselves.
-/

namespace Stencil.Text

theorem isAlpha_isWord {c : Char} (halpha : c.isAlpha) : isWord c := by
  have hcode : c.toNat < 128 := by
    have hupper : 'Z'.val.toNat = 90 := rfl
    have hlower : 'z'.val.toNat = 122 := rfl
    have hletter : c.isAlpha = (c.isUpper || c.isLower) := rfl
    have hupperCase : c.isUpper = decide ('A'.val ≤ c.val ∧ c.val ≤ 'Z'.val) := rfl
    have hlowerCase : c.isLower = (decide ('a'.val ≤ c.val) && decide (c.val ≤ 'z'.val)) := rfl
    rw [hletter, hupperCase, hlowerCase] at halpha
    simp only [Bool.or_eq_true, Bool.and_eq_true, decide_eq_true_eq,
      UInt32.le_iff_toNat_le] at halpha
    simp only [Char.toNat]
    omega
  simp [isWord, isAlphanumeric, isLetter_of_isAlpha c hcode, halpha]

theorem isWord_of_isLower_foldCase {c : Char} (hletter : (foldCase c).isLower) : isWord c := by
  unfold foldCase at hletter
  split at hletter
  next hlong =>
    rw [beq_iff_eq] at hlong
    subst hlong
    decide
  next =>
    split at hletter
    next hdotted =>
      rw [Bool.or_eq_true, beq_iff_eq, beq_iff_eq] at hdotted
      rcases hdotted with rfl | rfl <;> decide
    next =>
      apply isAlpha_isWord
      have halpha : c.isAlpha = (c.isUpper || c.isLower) := rfl
      unfold Char.toLower at hletter
      split at hletter
      next hupper =>
        have hcapital : c.isUpper = true := decide_eq_true hupper
        rw [halpha, hcapital, Bool.true_or]
      next => rw [halpha, hletter, Bool.or_true]

/-- The text stands for the word. -/
def Spells (word text : List Char) : Prop :=
  text.map foldCase = word

theorem Spells.length_eq {word text : List Char} (hspells : Spells word text) :
    text.length = word.length := by
  rw [← hspells, List.length_map]

theorem Spells.all_isWord
    {word text : List Char} (hspells : Spells word text) (hword : word.all Char.isLower) :
    ∀ c ∈ text, isWord c := by
  intro c hc
  apply isWord_of_isLower_foldCase
  rw [List.all_eq_true] at hword
  apply hword
  rw [← hspells]
  exact List.mem_map_of_mem hc

theorem Spells.exists_cons
    {word text : List Char} (hspells : Spells word text) (hword : word.all Char.isLower)
    (hnonempty : word ≠ []) : ∃ c rest, text = c :: rest ∧ isWord c := by
  cases text with
  | nil => exact absurd hspells.symm hnonempty
  | cons c rest => exact ⟨c, rest, rfl, hspells.all_isWord hword c List.mem_cons_self⟩

theorem afterWord?_eq_some_iff {word text rest : List Char} :
    afterWord? word text = some rest ↔ ∃ spelled, Spells word spelled ∧ text = spelled ++ rest := by
  unfold afterWord?
  constructor
  · intro hafter
    rw [Option.ite_none_right_eq_some, Option.some.injEq, List.isPrefixOf_iff_prefix] at hafter
    obtain ⟨hbegins, rfl⟩ := hafter
    refine ⟨text.take word.length, ?_, (List.take_append_drop word.length text).symm⟩
    have hshort : ((text.take word.length).map foldCase).length ≤ word.length := by
      rw [List.length_map]
      exact List.length_take_le _ _
    exact (hbegins.eq_of_length_le hshort).symm
  · rintro ⟨spelled, hspells, rfl⟩
    have htake : (spelled ++ rest).take word.length = spelled := by
      rw [← hspells.length_eq, List.take_left]
    have hdrop : (spelled ++ rest).drop word.length = rest := by
      rw [← hspells.length_eq, List.drop_left]
    rw [htake, hdrop, hspells, if_pos]
    exact List.isPrefixOf_iff_prefix.mpr (List.prefix_refl word)

theorem isSome_afterWord?_iff {word text : List Char} :
    (afterWord? word text).isSome ↔
      ∃ spelled rest, Spells word spelled ∧ text = spelled ++ rest := by
  simp only [Option.isSome_iff_exists, afterWord?_eq_some_iff]
  exact exists_comm

end Stencil.Text
