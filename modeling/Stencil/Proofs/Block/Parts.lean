import Stencil.Block.Attributes
import Stencil.Proofs.Text.Split
import Mathlib.Algebra.Group.Nat.Even
import Mathlib.Algebra.GroupWithZero.Nat
import Mathlib.Tactic.Common

/-!
# The parts of an attribute list

A comma separates two parts exactly when an even number of quotes follows it in the whole list, of
whichever kinds.  The parts joined by commas are the list again, so their number and the commas in
them make up the commas of the list.
-/

namespace Stencil.Block

open Stencil.Text

/-- An even number of quotes stands in the text, the two kinds counted together. -/
def EvenQuotes (text : List Char) : Prop :=
  Even (text.countP isQuote)

theorem evenQuotes_append {before after : List Char} (hbefore : EvenQuotes before) :
    EvenQuotes (before ++ after) ↔ EvenQuotes after := by
  rw [EvenQuotes] at hbefore
  simp [EvenQuotes, List.countP_append, Nat.even_add, hbefore]

theorem evenQuotes_append_of_even {before after : List Char} (hafter : EvenQuotes after) :
    EvenQuotes (before ++ after) ↔ EvenQuotes before := by
  rw [EvenQuotes] at hafter
  simp [EvenQuotes, List.countP_append, Nat.even_add, hafter]

theorem evenQuotes_of_plain {text : List Char} (hplain : ∀ c ∈ text, isQuote c = false) :
    EvenQuotes text := by
  have hzero : text.countP isQuote = 0 := by
    rw [List.countP_eq_zero]
    intro c hc
    simp [hplain c hc]
  rw [EvenQuotes, hzero]
  exact Even.zero

theorem splitParts_cons (c : Char) (rest : List Char) :
    splitParts (c :: rest) =
      if c == ',' && !(splitParts rest).1 then
        ((splitParts rest).1, [], (splitParts rest).2.1 :: (splitParts rest).2.2)
      else
        (if isQuote c then !(splitParts rest).1 else (splitParts rest).1,
          c :: (splitParts rest).2.1, (splitParts rest).2.2) := rfl

theorem fst_splitParts_eq_false_iff {text : List Char} :
    (splitParts text).1 = false ↔ EvenQuotes text := by
  induction text with
  | nil => simp [splitParts, EvenQuotes]
  | cons c rest ih =>
      have hflips : (splitParts (c :: rest)).1 =
          if isQuote c then !(splitParts rest).1 else (splitParts rest).1 := by
        rw [splitParts_cons]
        split
        next hseparates =>
          rw [Bool.and_eq_true, beq_iff_eq] at hseparates
          obtain ⟨rfl, -⟩ := hseparates
          rfl
        next => rfl
      rw [EvenQuotes] at ih
      rw [hflips, EvenQuotes, List.countP_cons]
      by_cases hquote : isQuote c
      · simp [hquote, Nat.even_add_one, ← ih]
      · simp [hquote, ih]

/-! ## One character at a time -/

theorem parts_nil : parts [] = [[]] := rfl

theorem parts_comma {rest : List Char} (hrest : EvenQuotes rest) :
    parts (',' :: rest) = [] :: parts rest := by
  have heven := fst_splitParts_eq_false_iff.mpr hrest
  simp [parts, splitParts_cons, heven]

theorem parts_cons
    {c : Char} {rest first : List Char} {later : List (List Char)}
    (hjoined : c = ',' → ¬ EvenQuotes rest) (hrest : parts rest = first :: later) :
    parts (c :: rest) = (c :: first) :: later := by
  have hkept : (c == ',' && !(splitParts rest).1) = false := by
    rw [Bool.and_eq_false_iff, beq_eq_false_iff_ne, Bool.not_eq_false']
    by_cases hcomma : c = ','
    · right
      rw [← Bool.not_eq_false, fst_splitParts_eq_false_iff]
      exact hjoined hcomma
    · exact .inl hcomma
  simp only [parts, List.cons.injEq] at hrest
  simp [parts, splitParts_cons, hkept, hrest]

theorem exists_parts (text : List Char) : ∃ first later, parts text = first :: later :=
  ⟨_, _, rfl⟩

/-- No comma of the piece separates, with the given text behind it. -/
def Joined (piece rest : List Char) : Prop :=
  ∀ before after, piece = before ++ ',' :: after → ¬ EvenQuotes (after ++ rest)

theorem joined_cons {c : Char} {piece rest : List Char} :
    Joined (c :: piece) rest ↔ (c = ',' → ¬ EvenQuotes (piece ++ rest)) ∧ Joined piece rest := by
  constructor
  · intro hjoined
    refine ⟨?_, fun before after hpiece => ?_⟩
    · rintro rfl
      exact hjoined [] piece rfl
    · exact hjoined (c :: before) after (by rw [hpiece, List.cons_append])
  · rintro ⟨hfirst, hlater⟩ before after hpiece
    cases before with
    | nil =>
        obtain ⟨rfl, rfl⟩ := List.cons.inj hpiece
        exact hfirst rfl
    | cons d before => exact hlater before after (List.cons.inj hpiece).2

/-! ## Pieces -/

theorem parts_append
    {piece rest first : List Char} {later : List (List Char)} (hpiece : Joined piece rest)
    (hrest : parts rest = first :: later) : parts (piece ++ rest) = (piece ++ first) :: later := by
  induction piece with
  | nil => exact hrest
  | cons c piece ih =>
      rw [joined_cons] at hpiece
      exact parts_cons hpiece.1 (ih hpiece.2)

theorem parts_append_of_comma_notMem
    {piece rest first : List Char} {later : List (List Char)} (hpiece : ',' ∉ piece)
    (hrest : parts rest = first :: later) : parts (piece ++ rest) = (piece ++ first) :: later := by
  refine parts_append (fun before after hsplit => ?_) hrest
  rw [hsplit] at hpiece
  simp at hpiece

theorem parts_cons_eq_iff {c : Char} {rest first : List Char} {later : List (List Char)} :
    parts (c :: rest) = (c :: first) :: later ↔
      (c = ',' → ¬ EvenQuotes rest) ∧ parts rest = first :: later := by
  obtain ⟨found, behind, hrest⟩ := exists_parts rest
  constructor
  · intro hparts
    have hjoined : c = ',' → ¬ EvenQuotes rest := by
      rintro rfl heven
      rw [parts_comma heven] at hparts
      simp at hparts
    rw [parts_cons hjoined hrest, List.cons.injEq, List.cons.injEq] at hparts
    obtain ⟨⟨-, rfl⟩, rfl⟩ := hparts
    exact ⟨hjoined, hrest⟩
  · rintro ⟨hjoined, hparts⟩
    exact parts_cons hjoined hparts

theorem parts_append_comma_eq_iff {piece rest : List Char} {later : List (List Char)} :
    parts (piece ++ ',' :: rest) = piece :: later ↔
      Joined piece (',' :: rest) ∧ EvenQuotes rest ∧ parts rest = later := by
  induction piece with
  | nil =>
      have hjoined : Joined [] (',' :: rest) := fun before after hsplit => by simp at hsplit
      by_cases heven : EvenQuotes rest
      · simp [parts_comma heven, heven, hjoined]
      · obtain ⟨found, behind, hrest⟩ := exists_parts rest
        rw [List.nil_append, parts_cons (fun _ => heven) hrest]
        simp [heven]
  | cons c piece ih =>
      rw [List.cons_append, parts_cons_eq_iff, ih, joined_cons, and_assoc]

theorem parts_eq_singleton_iff {piece : List Char} : parts piece = [piece] ↔ Joined piece [] := by
  induction piece with
  | nil => simp [parts_nil, Joined]
  | cons c piece ih => rw [parts_cons_eq_iff, ih, joined_cons, List.append_nil]

/-! ## The parts together -/

theorem intercalate_parts (text : List Char) : List.intercalate [','] (parts text) = text := by
  induction text with
  | nil => rfl
  | cons c rest ih =>
      obtain ⟨first, later, hrest⟩ := exists_parts rest
      by_cases hseparates : c = ',' ∧ EvenQuotes rest
      · obtain ⟨rfl, heven⟩ := hseparates
        have hparts : parts rest ≠ [] := List.cons_ne_nil _ _
        rw [parts_comma heven, intercalate_cons hparts, ih]
        rfl
      · rw [not_and] at hseparates
        rw [parts_cons hseparates hrest]
        rw [hrest] at ih
        cases later with
        | nil => simpa [List.intercalate] using ih
        | cons next later =>
            rw [intercalate_cons (List.cons_ne_nil _ _)] at ih ⊢
            rw [← ih]
            rfl

theorem isPrefix_of_parts {text first : List Char} {later : List (List Char)}
    (hparts : parts text = first :: later) : first <+: text := by
  have hwhole := intercalate_parts text
  cases later with
  | nil =>
      rw [hparts, List.intercalate_singleton] at hwhole
      subst hwhole
      exact List.prefix_rfl
  | cons next later =>
      rw [hparts, intercalate_cons (List.cons_ne_nil _ _), List.append_assoc] at hwhole
      exact ⟨_, hwhole⟩

theorem later_eq_nil_of_parts {text : List Char} {later : List (List Char)}
    (hparts : parts text = text :: later) : later = [] := by
  have hwhole := intercalate_parts text
  cases later with
  | nil => rfl
  | cons next later =>
      rw [hparts, intercalate_cons (List.cons_ne_nil _ _), List.append_assoc] at hwhole
      simp at hwhole

theorem count_parts (text : List Char) :
    text.count ',' + 1 = ((parts text).map (List.count ',')).sum + (parts text).length := by
  induction text with
  | nil => rfl
  | cons c rest ih =>
      obtain ⟨first, later, hrest⟩ := exists_parts rest
      by_cases hseparates : c = ',' ∧ EvenQuotes rest
      · obtain ⟨rfl, heven⟩ := hseparates
        rw [parts_comma heven, List.count_cons_self, ih]
        simp only [List.map_cons, List.count_nil, List.sum_cons, List.length_cons]
        omega
      · rw [not_and] at hseparates
        rw [parts_cons hseparates hrest, List.count_cons]
        rw [hrest] at ih
        simp only [List.map_cons, List.count_cons, List.sum_cons, List.length_cons] at ih ⊢
        omega

end Stencil.Block
