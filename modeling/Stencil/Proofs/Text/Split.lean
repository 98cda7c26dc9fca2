import Stencil.Text.Search
import Mathlib.Data.List.Basic

/-!
# Splitting a text

There is always at least one part, and the parts with the separator between them are the text again.
At a single character a text splits into parts that are free of it.  A list that grows at its end
is cut where it could be cut before, or at its new element.
-/

namespace Stencil.Text

theorem splitAllFrom_ne_nil (separator held : List Char) (skip : Nat) (text : List Char) :
    splitAllFrom separator held skip text ≠ [] := by
  fun_induction splitAllFrom separator held skip text with
  | case1 => exact List.cons_ne_nil _ _
  | case2 _ _ _ _ ih => exact ih
  | case3 => exact List.cons_ne_nil _ _
  | case4 _ _ _ _ ih => exact ih

theorem splitAll_ne_nil (separator text : List Char) : splitAll separator text ≠ [] :=
  splitAllFrom_ne_nil separator [] 0 text

theorem intercalate_cons
    {rest : List (List Char)} (hrest : rest ≠ []) (separator part : List Char) :
    List.intercalate separator (part :: rest) =
      part ++ separator ++ List.intercalate separator rest := by
  obtain ⟨next, later, rfl⟩ := List.exists_cons_of_ne_nil hrest
  simp [List.intercalate]

section

variable {pattern : List Char}

theorem intercalate_splitAllFrom (hpattern : pattern ≠ []) (held : List Char) (skip : Nat)
    (text : List Char) :
    List.intercalate pattern (splitAllFrom pattern held skip text) =
      held.reverse ++ text.drop skip := by
  fun_induction splitAllFrom pattern held skip text with
  | case1 => simp [List.intercalate]
  | case2 held skip c text ih => rw [ih, List.drop_succ_cons]
  | case3 held c text hbegins ih =>
      have hwidth : 0 < pattern.length := List.length_pos_iff.mpr hpattern
      obtain ⟨rest, hrest⟩ := List.isPrefixOf_iff_prefix.mp hbegins
      have hdrop : text.drop (pattern.length - 1) = rest := by
        have hwhole : (c :: text).drop pattern.length = rest := by
          rw [← hrest, List.drop_left]
        rw [← hwhole, ← Nat.sub_add_cancel hwidth, List.drop_succ_cons, Nat.add_sub_cancel]
      rw [intercalate_cons (splitAllFrom_ne_nil _ _ _ _), ih, hdrop, List.reverse_nil,
        List.nil_append, List.append_assoc, hrest, List.drop_zero]
  | case4 held c text hbegins ih => simpa using ih

theorem intercalate_splitAll (hpattern : pattern ≠ []) (text : List Char) :
    List.intercalate pattern (splitAll pattern text) = text :=
  intercalate_splitAllFrom hpattern [] 0 text

/-- What does not tell the pattern from its replacement does not see that it was replaced. -/
theorem replaceAll_congr
    {β : Type} {replacement : List Char} (hpattern : pattern ≠ []) (see : List Char → β)
    (hsee : ∀ front back, see (front ++ replacement ++ back) = see (front ++ pattern ++ back))
    (front text back : List Char) :
    see (front ++ replaceAll pattern replacement text ++ back) = see (front ++ text ++ back) := by
  have hparts : ∀ parts front,
      see (front ++ List.intercalate replacement parts ++ back) =
        see (front ++ List.intercalate pattern parts ++ back) := by
    intro parts
    induction parts with
    | nil => exact fun _ => rfl
    | cons part rest ih =>
        intro front
        by_cases hrest : rest = []
        · subst hrest
          simp [List.intercalate]
        · have hlater := ih (front ++ part ++ replacement)
          have hhere := hsee (front ++ part) (List.intercalate pattern rest ++ back)
          rw [intercalate_cons hrest, intercalate_cons hrest]
          simp only [List.append_assoc] at hlater hhere ⊢
          rw [hlater, hhere]
  rw [replaceAll, hparts, intercalate_splitAll hpattern]

end

variable {mark : Char}

theorem splitAllFrom_cons (held : List Char) (c : Char) (text : List Char) :
    splitAllFrom [mark] held 0 (c :: text) =
      if c = mark then held.reverse :: splitAll [mark] text
      else splitAllFrom [mark] (c :: held) 0 text := by
  rw [splitAllFrom, splitAll]
  by_cases hc : c = mark
  · subst hc
    simp
  · simp [hc, Ne.symm hc]

theorem splitAllFrom_append (held front back : List Char) :
    splitAllFrom [mark] held 0 (front ++ mark :: back) =
      splitAllFrom [mark] held 0 front ++ splitAll [mark] back := by
  induction front generalizing held with
  | nil => rw [List.nil_append, splitAllFrom_cons, if_pos rfl, splitAllFrom]; rfl
  | cons c front ih =>
      rw [List.cons_append, splitAllFrom_cons, splitAllFrom_cons]
      by_cases hc : c = mark
      · rw [if_pos hc, if_pos hc, splitAll, ih, List.cons_append]
        rfl
      · rw [if_neg hc, if_neg hc, ih]

theorem splitAll_append (front back : List Char) :
    splitAll [mark] (front ++ mark :: back) = splitAll [mark] front ++ splitAll [mark] back :=
  splitAllFrom_append [] front back

theorem exists_mem_splitAll_of_mem
    {text : List Char} {c : Char} (hc : c ∈ text) (hmark : c ≠ mark) :
    ∃ part ∈ splitAll [mark] text, c ∈ part := by
  have hparts : ∀ parts, c ∈ List.intercalate [mark] parts → ∃ part ∈ parts, c ∈ part := by
    intro parts hmem
    induction parts with
    | nil => contradiction
    | cons part rest ih =>
        by_cases hrest : rest = []
        · subst hrest
          exact ⟨part, List.mem_cons_self, by simpa [List.intercalate] using hmem⟩
        · rw [intercalate_cons hrest, List.append_assoc, List.mem_append, List.mem_append,
            List.mem_singleton] at hmem
          rcases hmem with hhere | hmark' | hlater
          · exact ⟨part, List.mem_cons_self, hhere⟩
          · contradiction
          · obtain ⟨other, hother, hc⟩ := ih hlater
            exact ⟨other, List.mem_cons_of_mem _ hother, hc⟩
  apply hparts
  rw [intercalate_splitAll (List.cons_ne_nil mark [])]
  exact hc

theorem splitAllFrom_of_notMem {text : List Char} (htext : mark ∉ text) (held : List Char) :
    splitAllFrom [mark] held 0 text = [held.reverse ++ text] := by
  induction text generalizing held with
  | nil => simp [splitAllFrom]
  | cons c text ih =>
      rw [List.mem_cons, not_or] at htext
      rw [splitAllFrom_cons, if_neg (Ne.symm htext.1), ih htext.2]
      simp

theorem splitAll_of_notMem {text : List Char} (htext : mark ∉ text) :
    splitAll [mark] text = [text] :=
  splitAllFrom_of_notMem htext []

theorem splitAll_intercalate
    {parts : List (List Char)} (hnonempty : parts ≠ []) (hparts : ∀ part ∈ parts, mark ∉ part) :
    splitAll [mark] (List.intercalate [mark] parts) = parts := by
  induction parts with
  | nil => contradiction
  | cons part rest ih =>
      rw [List.forall_mem_cons] at hparts
      cases rest with
      | nil => simpa [List.intercalate] using splitAll_of_notMem hparts.1
      | cons next rest =>
          rw [intercalate_cons (List.cons_ne_nil _ _), List.append_assoc, List.singleton_append,
            splitAll_append, splitAll_of_notMem hparts.1, ih (List.cons_ne_nil _ _) hparts.2]
          rfl

/-- A list is cut at its last element, or before it; then the last element stands at the end of what
is behind the cut. -/
theorem concat_eq_append_cons_iff {α : Type} {items before after : List α} {last item : α} :
    items ++ [last] = before ++ item :: after ↔
      (items = before ∧ last = item ∧ after = []) ∨
        ∃ rest, after = rest ++ [last] ∧ items = before ++ item :: rest := by
  constructor
  · intro hcut
    rcases List.eq_nil_or_concat' after with rfl | ⟨rest, other, rfl⟩
    · obtain ⟨hitems, hlast⟩ := List.append_inj' hcut rfl
      exact .inl ⟨hitems, List.singleton_inj.mp hlast, rfl⟩
    · rw [← List.cons_append, ← List.append_assoc] at hcut
      obtain ⟨hitems, hlast⟩ := List.append_inj' hcut rfl
      rw [List.singleton_inj.mp hlast]
      exact .inr ⟨rest, rfl, hitems⟩
  · rintro (⟨rfl, rfl, rfl⟩ | ⟨rest, rfl, rfl⟩)
    · rfl
    · rw [List.append_assoc, List.cons_append]

end Stencil.Text
