import Stencil.Proofs.Text.Blank
import Mathlib.Data.List.Basic

/-!
# Openers of host tags

The host evaluator looks for three openers.  An opener begins with a bracket that it holds only
there, so openers are counted separately on the two sides of most boundaries.
-/

namespace Stencil.Directive

open Stencil.Text

/-- What opens a statement, an interpolation and a comment of the host language. -/
def hostOpeners : List (List Char) :=
  [['<', '?', 'p', 'y'], ['<', '?', '='], ['<', '?', '#']]

def opensHostTag (text : List Char) : Bool :=
  hostOpeners.any (·.isPrefixOf text)

/-- The number of places in a text at which an opener stands. -/
def openerCount : List Char → Nat
  | [] => 0
  | c :: rest => (if opensHostTag (c :: rest) then 1 else 0) + openerCount rest

/-- A character that stands in an opener behind the bracket. -/
def continuesOpener (c : Char) : Bool :=
  c == '?' || c == 'p' || c == 'y' || c == '=' || c == '#'

theorem opensHostTag_iff {text : List Char} :
    opensHostTag text = true ↔ ∃ opener ∈ hostOpeners, opener <+: text := by
  simp only [opensHostTag, List.any_eq_true, List.isPrefixOf_iff_prefix]

theorem exists_of_opensHostTag {text : List Char} (hopens : opensHostTag text = true) :
    ∃ rest,
      text = '<' :: '?' :: 'p' :: 'y' :: rest ∨ text = '<' :: '?' :: '=' :: rest ∨
        text = '<' :: '?' :: '#' :: rest := by
  obtain ⟨opener, hopener, rest, rfl⟩ := opensHostTag_iff.mp hopens
  simp only [hostOpeners, List.mem_cons, List.not_mem_nil, or_false] at hopener
  rcases hopener with rfl | rfl | rfl
  · exact ⟨rest, .inl rfl⟩
  · exact ⟨rest, .inr (.inl rfl)⟩
  · exact ⟨rest, .inr (.inr rfl)⟩

theorem opensHostTag_cons_of_ne {c : Char} (hc : c ≠ '<') (rest : List Char) :
    opensHostTag (c :: rest) = false := by
  rw [Bool.eq_false_iff]
  intro hopens
  obtain ⟨_, hopener | hopener | hopener⟩ := exists_of_opensHostTag hopens
  all_goals exact hc (List.cons.inj hopener).1

theorem openerCount_cons_of_ne {c : Char} (hc : c ≠ '<') (rest : List Char) :
    openerCount (c :: rest) = openerCount rest := by
  rw [openerCount, opensHostTag_cons_of_ne hc]
  simp

theorem openerCount_plain_append
    {text : List Char} (htext : '<' ∉ text) (rest : List Char) :
    openerCount (text ++ rest) = openerCount rest := by
  induction text with
  | nil => rfl
  | cons c text ih =>
      rw [List.mem_cons, not_or] at htext
      rw [List.cons_append, openerCount_cons_of_ne (Ne.symm htext.1), ih htext.2]

theorem openerCount_plain {text : List Char} (htext : '<' ∉ text) : openerCount text = 0 := by
  have hcount := openerCount_plain_append htext []
  rwa [List.append_nil] at hcount

/-- No pattern reaches over a character that it does not hold. -/
theorem prefix_append_cons_iff
    {pattern text rest : List Char} {d : Char} (hd : d ∉ pattern) :
    pattern <+: text ++ d :: rest ↔ pattern <+: text := by
  induction text generalizing pattern with
  | nil =>
      cases pattern with
      | nil => simp
      | cons p pattern =>
          simp only [List.mem_cons, not_or] at hd
          simp [List.cons_prefix_cons, Ne.symm hd.1]
  | cons c text ih =>
      cases pattern with
      | nil => simp
      | cons p pattern =>
          simp only [List.mem_cons, not_or] at hd
          rw [List.cons_append, List.cons_prefix_cons, List.cons_prefix_cons, ih hd.2]

theorem opensHostTag_append_cons
    {d : Char} (hd : continuesOpener d = false) (c : Char) (text rest : List Char) :
    opensHostTag (c :: (text ++ d :: rest)) = opensHostTag (c :: text) := by
  simp only [continuesOpener, Bool.or_eq_false_iff, beq_eq_false_iff_ne] at hd
  rw [Bool.eq_iff_iff, opensHostTag_iff, opensHostTag_iff]
  simp only [hostOpeners, List.mem_cons, List.not_mem_nil, or_false, exists_eq_or_imp,
    exists_eq_left, List.cons_prefix_cons]
  rw [prefix_append_cons_iff (by simp [hd]), prefix_append_cons_iff (by simp [hd]),
    prefix_append_cons_iff (by simp [hd])]

/-- No opener reaches over a character that cannot continue one. -/
theorem openerCount_append_cons
    {d : Char} (hd : continuesOpener d = false) (text rest : List Char) :
    openerCount (text ++ d :: rest) = openerCount text + openerCount (d :: rest) := by
  induction text with
  | nil => simp [openerCount]
  | cons c text ih =>
      rw [List.cons_append, openerCount, opensHostTag_append_cons hd, ih]
      exact (Nat.add_assoc ..).symm

/-- Behind a character that can neither begin nor continue an opener, counting starts again. -/
theorem openerCount_append_of_last
    {d : Char} (hd : continuesOpener d = false) (hbracket : d ≠ '<') (text rest : List Char) :
    openerCount (text ++ [d] ++ rest) = openerCount (text ++ [d]) + openerCount rest := by
  rw [List.append_assoc, List.cons_append, List.nil_append, openerCount_append_cons hd,
    openerCount_append_cons hd, openerCount_cons_of_ne hbracket, openerCount_cons_of_ne hbracket]
  rfl

theorem openerCount_between
    {before after : List Char} {d : Char} (hbefore : '<' ∉ before)
    (hd : continuesOpener d = false) (hafter : '<' ∉ d :: after) (inside : List Char) :
    openerCount (before ++ (inside ++ d :: after)) = openerCount inside := by
  rw [openerCount_plain_append hbefore, openerCount_append_cons hd, openerCount_plain hafter]
  rfl

/-! ## Parts of a text -/

theorem openerCount_eq_zero_iff {text : List Char} :
    openerCount text = 0 ↔ ∀ tail, tail <:+ text → opensHostTag tail = false := by
  induction text with
  | nil =>
      simp only [openerCount, List.suffix_nil, forall_eq, true_iff]
      rfl
  | cons c rest ih =>
      simp only [openerCount, Nat.add_eq_zero_iff, ih, List.suffix_cons_iff, forall_eq_or_imp]
      simp

theorem opensHostTag_append {text : List Char} (htext : opensHostTag text) (rest : List Char) :
    opensHostTag (text ++ rest) = true := by
  rw [opensHostTag_iff] at htext ⊢
  obtain ⟨opener, hopener, hbegins⟩ := htext
  exact ⟨opener, hopener, hbegins.trans <| List.prefix_append text rest⟩

theorem openerCount_eq_zero_of_isInfix
    {part text : List Char} (hpart : part <:+: text) (htext : openerCount text = 0) :
    openerCount part = 0 := by
  rw [openerCount_eq_zero_iff] at htext ⊢
  intro tail htail
  obtain ⟨before, after, rfl⟩ := hpart
  obtain ⟨passed, rfl⟩ := htail
  have hsuffix : tail ++ after <:+ before ++ (passed ++ tail) ++ after :=
    ⟨before ++ passed, by simp only [List.append_assoc]⟩
  have hwhole := htext _ hsuffix
  rw [Bool.eq_false_iff] at hwhole ⊢
  intro hopens
  exact hwhole (opensHostTag_append hopens after)

/-! ## Blanks -/

theorem notMem_bracket_of_allBlank {gap : List Char} (hgap : AllBlank gap) : '<' ∉ gap := by
  intro hbracket
  have hblank := hgap '<' hbracket
  contradiction

theorem continuesOpener_eq_false_of_isBlank {c : Char} (hblank : isBlank c) :
    continuesOpener c = false := by
  rw [Bool.eq_false_iff]
  intro hc
  simp only [continuesOpener, Bool.or_eq_true, beq_iff_eq] at hc
  rcases hc with (((rfl | rfl) | rfl) | rfl) | rfl <;> contradiction

theorem openerCount_append_blanks {gap : List Char} (hgap : AllBlank gap) (text : List Char) :
    openerCount (text ++ gap) = openerCount text := by
  cases gap with
  | nil => rw [List.append_nil]
  | cons c gap =>
      have hc := continuesOpener_eq_false_of_isBlank (hgap c List.mem_cons_self)
      rw [openerCount_append_cons hc, openerCount_plain (notMem_bracket_of_allBlank hgap)]
      rfl

theorem openerCount_trim (text : List Char) : openerCount (trim text) = openerCount text := by
  obtain ⟨gap, hgap, _, htext⟩ := exists_eq_append_skipBlanks text
  obtain ⟨gap', hgap', _, htext'⟩ := exists_eq_append_skipBlanks (skipBlanks text).reverse
  have hend : skipBlanks text = trim text ++ gap'.reverse := by
    rw [trim, trimEnd, ← List.reverse_append, ← htext', List.reverse_reverse]
  have hblanks : AllBlank gap'.reverse := fun c hc => hgap' c (List.mem_reverse.mp hc)
  have hplain := notMem_bracket_of_allBlank hgap
  conv_rhs => rw [htext, openerCount_plain_append hplain, hend, openerCount_append_blanks hblanks]

end Stencil.Directive
