import Stencil.Proofs.Script.Tokens
import Mathlib.Data.List.Basic

/-!
# Minifying a script twice

The second pass finds the tokens that the first one kept, and the separators that it wrote stay.
Only a semicolon may still go: one that was kept because another semicolon stood between it and the
closing brace.
-/

namespace Stencil.Script

open Stencil.Text

variable {last seen : Option Token} {token : Token} {gap : Gap}
  {rest tokens : List (Gap × Token)} {brackets : Brackets}

/-! ## Separators stay -/

theorem separator_gapOf (left : List Char) (gap : Gap) (right : List Char) :
    separator left (gapOf (separator left gap right)) right = separator left gap right := by
  by_cases hwords : lastIs isWordChar left && firstIs isWordChar right
  · cases gap <;> simp [separator, gapOf, Gap.grow, hwords]
  · cases gap with
    | closed => rfl
    | space =>
        by_cases htogether : runsTogether left right <;>
          simp [separator, gapOf, Gap.grow, hwords, htogether]
    | line =>
        by_cases hstatement : lastIs endsStatement left && firstIs beginsStatement right
        · simp [separator, gapOf, Gap.grow, hwords, hstatement]
        · by_cases htogether : runsTogether left right <;>
            simp [separator, gapOf, Gap.grow, hwords, hstatement, htogether]

theorem between_gapOf (hsight : SameSight seen last token) (gap : Gap) :
    between seen (gapOf (between last gap token)) token = between last gap token := by
  rcases hsight with rfl | rfl
  · cases seen with
    | none => rfl
    | some last => exact separator_gapOf last.text gap token.text
  · rw [between_closer (.inr rfl), between_closer (.inr rfl)]

theorem after_eq_of_sameSight (hsight : SameSight seen last token) (brackets : Brackets) :
    brackets.after seen token = brackets.after last token := by
  rcases hsight with rfl | rfl <;> rfl

theorem isIdle_eq_of_sameSight (hsight : SameSight seen last token) (brackets : Brackets)
    (rest : List (Gap × Token)) :
    isIdle brackets seen token rest = isIdle brackets last token rest := by
  rcases hsight with rfl | rfl <;> rfl

/-! ## Semicolons that go late -/

/-- A semicolon that becomes idle when the one behind it is gone. -/
def Place.isLate (place : Place) : Bool :=
  match place.rest with
  | [] => false
  | (_, next) :: later =>
    Script.isIdle (place.brackets.after place.last place.token) (some place.token) next later &&
      Script.isIdle place.brackets place.last place.token later

def Place.writtenAgain (place : Place) : List Char :=
  between place.last place.gap place.token ++
    if place.isIdle || place.isLate then [] else place.token.text

theorem writtenAgain_of_isIdle (hidle : isIdle brackets last token rest) (gap : Gap) :
    Place.writtenAgain ⟨brackets, last, gap, token, rest⟩ = [] := by
  obtain ⟨rfl, -⟩ := exists_of_isIdle hidle
  rw [Place.writtenAgain, Place.isIdle, hidle, between_closer (.inl rfl)]
  rfl

/-- A late semicolon was kept in the first pass. -/
theorem Place.eq_of_isLate {place : Place} (hlate : place.isLate) :
    place.token = ⟨.punctuation, [';']⟩ ∧ place.isIdle = false := by
  obtain ⟨brackets, last, gap, token, rest⟩ := place
  cases rest with
  | nil => contradiction
  | cons entry later =>
      obtain ⟨hnext, hhere⟩ := Bool.and_eq_true_iff.mp hlate
      refine ⟨(exists_of_isIdle hhere).1, ?_⟩
      rw [← Bool.not_eq_true]
      intro hidle
      obtain ⟨-, gap', later', hcloser⟩ := exists_of_isIdle hidle
      have hbrace : entry.2 = ⟨.punctuation, ['}']⟩ := by rw [(List.cons.inj hcloser).1]
      rw [(exists_of_isIdle hnext).1] at hbrace
      contradiction

/-- A token that was kept is idle among the kept ones exactly if it is late. -/
theorem isIdle_settled
    (hkept : isIdle brackets last token rest = false) (gap : Gap) :
    isIdle brackets last token
        ((keptFrom (brackets.after last token) (some token) rest).map Place.settled) =
      Place.isLate ⟨brackets, last, gap, token, rest⟩ := by
  cases rest with
  | nil => exact isIdle_nil brackets last token
  | cons entry later =>
      obtain ⟨gap', next⟩ := entry
      rw [Place.isLate]
      by_cases hidle : isIdle (brackets.after last token) (some token) next later
      · simp only [hidle]
        rw [keptFrom_cons_of_idle hidle]
        obtain ⟨-, gap'', later', rfl⟩ := exists_of_isIdle hidle
        rw [keptFrom_cons_of_not_idle (isIdle_eq_false_of_ne (by decide) _ _ _), Bool.true_and]
        rfl
      · rw [Bool.not_eq_true] at hidle
        simp only [hidle]
        rw [keptFrom_cons_of_not_idle hidle, Bool.false_and]
        exact hkept

theorem write_settled (hsight : ∀ entry ∈ tokens.head?, SameSight seen last entry.2) :
    write brackets seen ((keptFrom brackets last tokens).map Place.settled) =
      (placesFrom brackets last tokens).flatMap Place.writtenAgain := by
  induction tokens generalizing brackets last seen with
  | nil => rfl
  | cons entry rest ih =>
      obtain ⟨gap, token⟩ := entry
      have hhere : SameSight seen last token := hsight (gap, token) rfl
      rw [placesFrom, List.flatMap_cons]
      by_cases hidle : isIdle brackets last token rest
      · rw [keptFrom_cons_of_idle hidle, writtenAgain_of_isIdle hidle]
        obtain ⟨rfl, -⟩ := exists_of_isIdle hidle
        exact ih (sameSight_of_isIdle hidle seen _)
      · rw [Bool.not_eq_true] at hidle
        rw [keptFrom_cons_of_not_idle hidle, List.map_cons, Place.settled, write_cons,
          between_gapOf hhere, isIdle_eq_of_sameSight hhere, isIdle_settled hidle gap,
          after_eq_of_sameSight hhere, ih fun _ _ => .inl rfl, Place.writtenAgain, Place.isIdle,
          hidle, Bool.false_or]

/-! ## The second pass -/

theorem minify_minify_eq
    {script : List Char} (hstands : ∀ place ∈ places script, place.stands) :
    minify (minify script) = trim ((places script).flatMap Place.writtenAgain) := by
  have hsecond : minify (minify script) =
      trim (write ⟨[], false⟩ none (gapped .closed (pieces (minify script)))) := rfl
  rw [hsecond, gapped_pieces_minify hstands, write_settled fun _ _ => .inl rfl]
  rfl

theorem minify_eq_flatMap (script : List Char) :
    minify script = (places script).flatMap Place.written := by
  rw [minify_eq, write_eq_flatMap]
  rfl

/-- A late semicolon is missing in what is written again. -/
theorem Place.count_written (place : Place) :
    place.written.count ';' = place.writtenAgain.count ';' + if place.isLate then 1 else 0 := by
  cases hlate : place.isLate with
  | false => simp [written, writtenAgain, hlate]
  | true =>
      obtain ⟨htoken, hkept⟩ := eq_of_isLate hlate
      simp [written, writtenAgain, hlate, hkept, htoken]

theorem count_flatMap_written (places : List Place) :
    (places.flatMap Place.written).count ';' =
      (places.flatMap Place.writtenAgain).count ';' + places.countP Place.isLate := by
  induction places with
  | nil => rfl
  | cons place places ih =>
      rw [List.flatMap_cons, List.flatMap_cons, List.count_append, List.count_append,
        List.countP_cons, ih, place.count_written]
      omega

/-- If every token stands where it is written, a script is minified at once exactly when no
semicolon is late. -/
theorem minify_minify_eq_iff_of_stands
    (script : List Char) (hstands : ∀ place ∈ places script, place.stands) :
    minify (minify script) = minify script ↔ ∀ place ∈ places script, place.isLate = false := by
  have hagain := minify_minify_eq hstands
  have hcount := count_flatMap_written (places script)
  constructor
  · intro hsame
    have hle : (minify script).count ';' ≤
        ((places script).flatMap Place.writtenAgain).count ';' := by
      rw [← hsame, hagain]
      exact (trim_isInfix _).sublist.count_le ';'
    rw [minify_eq_flatMap] at hle
    have hnone : (places script).countP Place.isLate = 0 := by omega
    rw [List.countP_eq_zero] at hnone
    exact fun place hplace => Bool.eq_false_iff.mpr (hnone place hplace)
  · intro hnone
    have hwritten : (places script).flatMap Place.writtenAgain = minify script := by
      rw [minify_eq_flatMap]
      refine List.flatMap_congr fun place hplace => ?_
      rw [Place.writtenAgain, hnone place hplace, Bool.or_false, Place.written]
    rw [hagain, hwritten, minify, trim_trim]

theorem minify_minify_eq_iff_of_stands_loop :
    (∀ place ∈ places "\x7b while (a) ; ; b = /c/.d\n e ; \x7d".toList, place.stands) ∧
      (minify (minify "\x7b while (a) ; ; b = /c/.d\n e ; \x7d".toList) =
          minify "\x7b while (a) ; ; b = /c/.d\n e ; \x7d".toList ↔
        ∀ place ∈ places "\x7b while (a) ; ; b = /c/.d\n e ; \x7d".toList, place.isLate = false) :=
  ⟨by decide +kernel, minify_minify_eq_iff_of_stands _ (by decide +kernel)⟩

/-- Of two semicolons before a closing brace each pass drops one. -/
theorem minify_minify_ne_of_semicolons :
    minify (minify "\x7ba;;\x7d".toList) ≠ minify "\x7ba;;\x7d".toList := by
  decide +kernel

end Stencil.Script
