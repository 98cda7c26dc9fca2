import Stencil.Text.Search
import Mathlib.Data.List.Infix
import Mathlib.Tactic.Common

/-!
# Laws of searching

A search succeeds exactly when the pattern occurs in the text, and the position that it finds is one
at which the pattern begins.
-/

namespace Stencil.Text

theorem after?_eq_some_iff {pattern text rest : List Char} :
    after? pattern text = some rest ↔ text = pattern ++ rest := by
  constructor
  · exact eq_append_of_after?
  · rintro rfl
    induction pattern with
    | nil => rfl
    | cons c pattern ih => rw [List.cons_append, after?, if_pos rfl, ih]

theorem suffix_of_after?
    {pattern text rest : List Char} (hafter : after? pattern text = some rest) :
    rest <:+ text := by
  rw [eq_append_of_after? hafter]
  exact List.suffix_append pattern rest

theorem prefix_drop_of_indexOf?
    {pattern text : List Char} {position : Nat}
    (hfound : indexOf? pattern text = some position) :
    pattern <+: text.drop position := by
  induction text generalizing position with
  | nil =>
      simp only [indexOf?, Option.ite_none_right_eq_some, List.isEmpty_iff] at hfound
      rw [hfound.1]
      exact List.nil_prefix
  | cons c text ih =>
      rw [indexOf?] at hfound
      split at hfound
      next hbegins =>
        simp only [Option.some.injEq] at hfound
        subst position
        exact List.isPrefixOf_iff_prefix.mp hbegins
      next =>
        obtain ⟨later, hlater, rfl⟩ := Option.map_eq_some_iff.mp hfound
        exact ih hlater

theorem isSome_indexOf?_iff {pattern text : List Char} :
    (indexOf? pattern text).isSome ↔ pattern <:+: text := by
  induction text with
  | nil =>
      rw [List.infix_nil]
      cases pattern <;> simp [indexOf?]
  | cons c text ih =>
      rw [indexOf?, List.infix_cons_iff, ← ih]
      split
      next hbegins => simp [List.isPrefixOf_iff_prefix.mp hbegins]
      next hbegins =>
        rw [List.isPrefixOf_iff_prefix] at hbegins
        simp [hbegins]

/-- Before the position that is found the pattern begins nowhere. -/
theorem not_prefix_drop_of_lt_indexOf?
    {pattern text : List Char} {position earlier : Nat}
    (hfound : indexOf? pattern text = some position) (hearlier : earlier < position) :
    ¬ pattern <+: text.drop earlier := by
  induction text generalizing position earlier with
  | nil =>
      simp only [indexOf?, Option.ite_none_right_eq_some, Option.some.injEq] at hfound
      omega
  | cons c text ih =>
      rw [indexOf?] at hfound
      split at hfound
      next =>
        simp only [Option.some.injEq] at hfound
        omega
      next hbegins =>
        obtain ⟨later, hlater, rfl⟩ := Option.map_eq_some_iff.mp hfound
        cases earlier with
        | zero =>
            rw [List.isPrefixOf_iff_prefix] at hbegins
            exact hbegins
        | succ earlier => exact ih hlater (Nat.lt_of_succ_lt_succ hearlier)

/-- The search stops at the pattern if no earlier place begins it, also not across the place where
the pattern begins. -/
theorem indexOf?_append_of_first
    {pattern before : List Char} (hfirst : ¬ pattern <:+: before ++ pattern.dropLast)
    (after : List Char) : indexOf? pattern (before ++ (pattern ++ after)) = some before.length := by
  induction before with
  | nil =>
      have hbegins : pattern <+: pattern ++ after := List.prefix_append pattern after
      cases hwhole : pattern ++ after with
      | nil =>
          obtain ⟨rfl, -⟩ := List.append_eq_nil_iff.mp hwhole
          rfl
      | cons c rest =>
          rw [hwhole] at hbegins
          rw [List.nil_append, indexOf?, if_pos (List.isPrefixOf_iff_prefix.mpr hbegins)]
          rfl
  | cons c before ih =>
      have hlater : ¬ pattern <:+: before ++ pattern.dropLast := fun hinfix =>
        hfirst (List.infix_cons hinfix)
      have hhere : ¬ pattern <+: c :: (before ++ (pattern ++ after)) := by
        intro hbegins
        apply hfirst
        have hshort : c :: before ++ pattern.dropLast <+: c :: (before ++ (pattern ++ after)) := by
          rw [List.cons_append, List.cons_prefix_cons]
          refine ⟨rfl, (List.prefix_append_right_inj before).mpr ?_⟩
          exact (List.dropLast_prefix pattern).trans (List.prefix_append pattern after)
        have hlength : pattern.length ≤ (c :: before ++ pattern.dropLast).length := by
          simp only [List.cons_append, List.length_cons, List.length_append, List.length_dropLast]
          omega
        exact (List.prefix_of_prefix_length_le hbegins hshort hlength).isInfix
      rw [← List.isPrefixOf_iff_prefix] at hhere
      rw [List.cons_append, indexOf?, if_neg hhere, ih hlater]
      rfl

/-- The text before the pattern that is found begins no other one, also not together with it. -/
theorem exists_eq_append_of_indexOf?
    {pattern text : List Char} {position : Nat} (hpattern : pattern ≠ [])
    (hfound : indexOf? pattern text = some position) :
    ∃ before after, text = before ++ (pattern ++ after) ∧
      ¬ pattern <:+: before ++ pattern.dropLast := by
  obtain ⟨after, hafter⟩ := prefix_drop_of_indexOf? hfound
  have htext : text = text.take position ++ (pattern ++ after) := by
    rw [hafter, List.take_append_drop]
  refine ⟨text.take position, after, htext, ?_⟩
  rintro ⟨earlier, later, hinfix⟩
  have hearlier : earlier.length < position := by
    have hlengths := congrArg List.length hinfix
    have htaken := List.length_take_le position text
    have hfilled := List.length_pos_iff.mpr hpattern
    simp only [List.length_append, List.length_dropLast] at hlengths
    omega
  have hshort : text.take position ++ pattern.dropLast <+: text := by
    nth_rewrite 2 [htext]
    exact (List.prefix_append_right_inj _).mpr
      ((List.dropLast_prefix pattern).trans (List.prefix_append pattern after))
  obtain ⟨behind, hbehind⟩ := hshort
  refine not_prefix_drop_of_lt_indexOf? hfound hearlier ?_
  rw [← hbehind, ← hinfix, List.append_assoc, List.append_assoc, List.drop_left]
  exact List.prefix_append pattern _

theorem prefix_drop_of_lastIndexOf?
    {pattern text : List Char} {position : Nat}
    (hfound : lastIndexOf? pattern text = some position) :
    pattern <+: text.drop position := by
  induction text generalizing position with
  | nil =>
      simp only [lastIndexOf?, Option.ite_none_right_eq_some, List.isEmpty_iff] at hfound
      rw [hfound.1]
      exact List.nil_prefix
  | cons c text ih =>
      rw [lastIndexOf?] at hfound
      split at hfound
      next later hlater =>
        simp only [Option.some.injEq] at hfound
        subst position
        exact ih hlater
      next =>
        simp only [Option.ite_none_right_eq_some, Option.some.injEq] at hfound
        obtain ⟨hbegins, rfl⟩ := hfound
        exact List.isPrefixOf_iff_prefix.mp hbegins

theorem lastIndexOf?_eq_none_iff {pattern text : List Char} :
    lastIndexOf? pattern text = none ↔ ¬ pattern <:+: text := by
  induction text with
  | nil =>
      rw [List.infix_nil]
      cases pattern <;> simp [lastIndexOf?]
  | cons c text ih =>
      rw [lastIndexOf?, List.infix_cons_iff]
      cases hlater : lastIndexOf? pattern text with
      | some position =>
          have hoccurs : pattern <:+: text := by
            by_contra hnot
            rw [ih.mpr hnot] at hlater
            contradiction
          simp [hoccurs]
      | none =>
          have hnot : ¬ pattern <:+: text := ih.mp hlater
          simp [hnot, List.isPrefixOf_iff_prefix]

/-- Behind the position that is found the pattern begins nowhere. -/
theorem not_prefix_drop_of_lastIndexOf?_lt
    {pattern text : List Char} {position later : Nat} (hpattern : pattern ≠ [])
    (hfound : lastIndexOf? pattern text = some position) (hlater : position < later) :
    ¬ pattern <+: text.drop later := by
  induction text generalizing position later with
  | nil =>
      simp only [lastIndexOf?, Option.ite_none_right_eq_some, List.isEmpty_iff] at hfound
      exact absurd hfound.1 hpattern
  | cons c text ih =>
      cases later with
      | zero => exact absurd hlater (Nat.not_lt_zero position)
      | succ later =>
          rw [List.drop_succ_cons]
          cases hbehind : lastIndexOf? pattern text with
          | some inner =>
              rw [lastIndexOf?, hbehind, Option.some.injEq] at hfound
              exact ih hbehind (by omega)
          | none =>
              intro hbegins
              exact lastIndexOf?_eq_none_iff.mp hbehind
                (hbegins.isInfix.trans (List.drop_suffix later text).isInfix)

/-- The last occurrence of a character is behind all others. -/
theorem exists_eq_append_of_lastIndexOf?
    {c : Char} {text : List Char} {position : Nat}
    (hfound : lastIndexOf? [c] text = some position) :
    ∃ front back, text = front ++ c :: back ∧ front.length = position ∧ c ∉ back := by
  induction text generalizing position with
  | nil => simp [lastIndexOf?] at hfound
  | cons d text ih =>
      rw [lastIndexOf?] at hfound
      split at hfound
      next later hlater =>
        obtain ⟨front, back, rfl, rfl, hback⟩ := ih hlater
        exact ⟨d :: front, back, rfl, Option.some.inj hfound, hback⟩
      next hnone =>
        obtain ⟨hbegins, hposition⟩ := Option.ite_none_right_eq_some.mp hfound
        obtain rfl : c = d := by simpa using hbegins
        have hback : c ∉ text := by
          rw [← List.singleton_infix_iff]
          exact lastIndexOf?_eq_none_iff.mp hnone
        exact ⟨[], text, rfl, Option.some.inj hposition, hback⟩

theorem lastIndexOf?_append_cons {c : Char} {back : List Char} (hback : c ∉ back)
    (front : List Char) : lastIndexOf? [c] (front ++ c :: back) = some front.length := by
  induction front with
  | nil =>
      have hnone : lastIndexOf? [c] back = none := by
        rw [lastIndexOf?_eq_none_iff, List.singleton_infix_iff]
        exact hback
      simp [lastIndexOf?, hnone]
  | cons d front ih => rw [List.cons_append, lastIndexOf?, ih, List.length_cons]

/-- A text is cut at the last of a character: there is one, and what is behind it has no other. -/
theorem splitLast?_eq_some_iff {c : Char} {text front back : List Char} :
    splitLast? [c] text = some (front, back) ↔ text = front ++ c :: back ∧ c ∉ back := by
  constructor
  · intro hsplit
    obtain ⟨position, hfound, hparts⟩ := Option.map_eq_some_iff.mp hsplit
    obtain ⟨before, behind, rfl, rfl, hbehind⟩ := exists_eq_append_of_lastIndexOf? hfound
    rw [Prod.mk.injEq, List.take_left] at hparts
    obtain ⟨rfl, rfl⟩ := hparts
    refine ⟨?_, ?_⟩ <;> simp [hbehind]
  · rintro ⟨rfl, hback⟩
    rw [splitLast?, lastIndexOf?_append_cons hback]
    simp

end Stencil.Text
