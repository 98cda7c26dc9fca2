import Stencil.Script.Minify
import Mathlib.Data.List.TakeWhile
import Mathlib.Tactic.Common

/-!
# How far literals reach

A word or a literal reaches no further than the text.  A part of it from its beginning is all taken
if nothing follows, and a template literal that is followed by something has ended, so it does not
matter what follows it.  A regular expression ends with the word characters behind its closing
slash.
-/

namespace Stencil.Script

open Stencil.Text

/-! ## Words -/

def AllWord (text : List Char) : Prop :=
  ∀ c ∈ text, isWordChar c

theorem wordWidth_le (text : List Char) : wordWidth text ≤ text.length :=
  (List.takeWhile_sublist isWordChar).length_le

theorem wordWidth_append {body : List Char} (hbody : AllWord body) (behind : List Char) :
    wordWidth (body ++ behind) = body.length + wordWidth behind := by
  rw [wordWidth, List.takeWhile_append_of_pos hbody, List.length_append, wordWidth]

theorem firstIs_eq_false_iff {inClass : Char → Bool} {text : List Char} :
    firstIs inClass text = false ↔ ∀ c ∈ text.head?, inClass c = false := by
  cases text <;> simp [firstIs]

theorem wordWidth_eq_zero_iff {text : List Char} :
    wordWidth text = 0 ↔ firstIs isWordChar text = false := by
  cases text with
  | nil => exact iff_of_true rfl rfl
  | cons c rest => cases hc : isWordChar c <;> simp [wordWidth, firstIs, hc]

theorem allWord_take_wordWidth (text : List Char) : AllWord (text.take (wordWidth text)) := by
  have htake : text.take (wordWidth text) = text.takeWhile isWordChar :=
    (List.prefix_iff_eq_take.mp (List.takeWhile_prefix isWordChar)).symm
  rw [htake]
  exact fun c hc => List.mem_takeWhile_imp hc

theorem firstIs_drop_wordWidth (text : List Char) :
    firstIs isWordChar (text.drop (wordWidth text)) = false := by
  have hwidth := wordWidth_append (allWord_take_wordWidth text) (text.drop (wordWidth text))
  rw [List.take_append_drop, List.length_take_of_le (wordWidth_le text)] at hwidth
  rw [← wordWidth_eq_zero_iff]
  omega

/-! ## Quoted strings -/

theorem quotedWidth_cons {quote c : Char} (hescape : c = '\\' → False) (rest : List Char) :
    quotedWidth quote (c :: rest) =
      if c == quote then 1 else if c == '\n' then 0 else quotedWidth quote rest + 1 := by
  rw [quotedWidth]
  exact hescape

theorem quotedWidth_le (quote : Char) (text : List Char) :
    quotedWidth quote text ≤ text.length := by
  fun_induction quotedWidth quote text with
  | case1 => exact Nat.le_refl 0
  | case2 => exact Nat.le_refl 1
  | case3 d rest ih => exact Nat.add_le_add_right ih 2
  | case4 c rest => exact Nat.le_add_left 1 rest.length
  | case5 c rest => exact Nat.zero_le _
  | case6 c rest _ _ _ ih => exact Nat.succ_le_succ ih

theorem quotedWidth_eq_length
    {quote : Char} {part behind : List Char}
    (hreach : part.length ≤ quotedWidth quote (part ++ behind)) :
    quotedWidth quote part = part.length := by
  fun_induction quotedWidth quote part with
  | case1 => rfl
  | case2 => rfl
  | case3 d rest ih =>
      rw [List.cons_append, List.cons_append, quotedWidth, List.length_cons,
        List.length_cons] at hreach
      rw [ih (by omega)]
      rfl
  | case4 c rest hescape hquote =>
      rw [List.cons_append, quotedWidth_cons hescape, if_pos hquote, List.length_cons] at hreach
      rw [List.length_cons]
      omega
  | case5 c rest hescape hquote hbreak =>
      rw [List.cons_append, quotedWidth_cons hescape, if_neg hquote, if_pos hbreak] at hreach
      contradiction
  | case6 c rest hescape hquote hbreak ih =>
      rw [List.cons_append, quotedWidth_cons hescape, if_neg hquote, if_neg hbreak,
        List.length_cons] at hreach
      rw [ih (by omega)]
      rfl

/-! ## Template literals -/

theorem closeWidth_le (nests : List Nest) (text : List Char) :
    closeWidth nests text ≤ text.length := by
  fun_induction closeWidth nests text with
  | case1 => exact Nat.zero_le _
  | case2 => exact Nat.le_refl 0
  | case3 => exact Nat.le_refl 1
  | case4 => simp only [List.length_cons]; omega
  | case5 => simp only [List.length_cons]; omega
  | case6 => simp only [List.length_cons] at *; omega

theorem closeWidth_nil (text : List Char) : closeWidth [] text = 0 := by
  rw [closeWidth]

section

variable {nest : Nest} {outer : List Nest} {c d : Char}

theorem closeWidth_escape (hescape : (c == '\\' && nest.escapes) = true) (rest : List Char) :
    closeWidth (nest :: outer) (c :: d :: rest) = closeWidth (nest :: outer) rest + 2 := by
  rw [closeWidth, if_pos hescape]

theorem closeWidth_opens
    (hescape : ¬ (c == '\\' && nest.escapes) = true)
    (hopens : (c == '$' && d == '{' && decide (nest = .template)) = true) (rest : List Char) :
    closeWidth (nest :: outer) (c :: d :: rest) =
      closeWidth (.braces :: nest :: outer) rest + 2 := by
  rw [closeWidth, if_neg hescape, if_pos hopens]

theorem closeWidth_step
    (hescape : ¬ (c == '\\' && nest.escapes) = true)
    (hopens : ¬ (c == '$' && d == '{' && decide (nest = .template)) = true) (rest : List Char) :
    closeWidth (nest :: outer) (c :: d :: rest) =
      closeWidth (nest.step outer c) (d :: rest) + 1 := by
  rw [closeWidth, if_neg hescape, if_neg hopens]

end

theorem eq_nil_of_closeWidth_eq_zero
    {nests : List Nest} {c : Char} {rest : List Char} (hclosed : closeWidth nests (c :: rest) = 0) :
    nests = [] := by
  cases nests with
  | nil => rfl
  | cons nest outer =>
      exfalso
      cases rest with
      | nil => simp [closeWidth] at hclosed
      | cons d rest =>
          rw [closeWidth] at hclosed
          split at hclosed
          next => omega
          next => split at hclosed <;> omega

theorem closeWidth_eq_length
    {nests : List Nest} {part behind : List Char}
    (hreach : part.length ≤ closeWidth nests (part ++ behind)) :
    closeWidth nests part = part.length := by
  fun_induction closeWidth nests part with
  | case1 part =>
      rw [closeWidth_nil] at hreach
      omega
  | case2 => rfl
  | case3 => rfl
  | case4 nest outer c d rest hescape ih =>
      rw [List.cons_append, List.cons_append, closeWidth_escape hescape] at hreach
      simp only [List.length_cons] at hreach ⊢
      rw [ih (by omega)]
  | case5 nest outer c d rest hescape hopens ih =>
      rw [List.cons_append, List.cons_append, closeWidth_opens hescape hopens] at hreach
      simp only [List.length_cons] at hreach ⊢
      rw [ih (by omega)]
  | case6 nest outer c d rest hescape hopens ih =>
      rw [List.cons_append, List.cons_append, closeWidth_step hescape hopens] at hreach
      simp only [List.length_cons, List.cons_append] at hreach ih ⊢
      rw [ih (by omega)]

/-- A character that ends the last construct is neither an escape nor the beginning of a
substitution. -/
theorem closeWidth_eq_one
    {nest : Nest} {outer : List Nest} {b c : Char} {rest : List Char}
    (hclosed : closeWidth (nest :: outer) (b :: c :: rest) = 1) :
    ¬ (b == '\\' && nest.escapes) = true ∧ nest.step outer b = [] := by
  rw [closeWidth] at hclosed
  split at hclosed
  next => omega
  next hescape =>
    split at hclosed
    next => omega
    next => exact ⟨hescape, eq_nil_of_closeWidth_eq_zero (Nat.succ.inj hclosed)⟩

theorem closeWidth_cons_of_ends
    {nest : Nest} {outer : List Nest} {b c : Char} {rest : List Char}
    (hclosed : closeWidth (nest :: outer) (b :: c :: rest) = 1) (behind : List Char) :
    closeWidth (nest :: outer) (b :: behind) = 1 := by
  obtain ⟨hescape, hends⟩ := closeWidth_eq_one hclosed
  cases behind with
  | nil => rw [closeWidth]
  | cons d behind =>
      have hopens : ¬ (b == '$' && d == '{' && decide (nest = .template)) = true := by
        intro hsign
        simp only [Bool.and_eq_true, beq_iff_eq, decide_eq_true_eq] at hsign
        obtain ⟨⟨rfl, -⟩, rfl⟩ := hsign
        contradiction
      rw [closeWidth_step hescape hopens, hends, closeWidth_nil]

/-- The constructs end with the body if something follows it there, whatever follows it
elsewhere. -/
theorem closeWidth_append
    {nests : List Nest} {body : List Char} {c : Char} {rest : List Char}
    (hclosed : closeWidth nests (body ++ c :: rest) = body.length) (behind : List Char) :
    closeWidth nests (body ++ behind) = body.length := by
  fun_induction closeWidth nests body with
  | case1 body =>
      rw [closeWidth_nil] at hclosed ⊢
      exact hclosed
  | case2 =>
      have hnone := eq_nil_of_closeWidth_eq_zero hclosed
      contradiction
  | case3 nest outer b => exact closeWidth_cons_of_ends hclosed behind
  | case4 nest outer c d rest hescape ih =>
      rw [List.cons_append, List.cons_append, closeWidth_escape hescape] at hclosed ⊢
      rw [ih (Nat.add_right_cancel hclosed)]
      rfl
  | case5 nest outer c d rest hescape hopens ih =>
      rw [List.cons_append, List.cons_append, closeWidth_opens hescape hopens] at hclosed ⊢
      rw [ih (Nat.add_right_cancel hclosed)]
      rfl
  | case6 nest outer c d rest hescape hopens ih =>
      rw [List.cons_append, List.cons_append, closeWidth_step hescape hopens] at hclosed ⊢
      rw [← List.cons_append] at hclosed ⊢
      rw [ih (Nat.add_right_cancel hclosed)]
      rfl

/-- A character closes the innermost construct, or it leaves all of them open. -/
theorem Nest.step_eq_or_suffix (nest : Nest) (outer : List Nest) (c : Char) :
    nest.step outer c = outer ∨ nest :: outer <:+ nest.step outer c := by
  cases nest <;> simp only [step] <;> repeat' split
  all_goals simp [List.suffix_cons]

theorem Nest.getLast?_step
    {nest : Nest} {outer : List Nest} {c : Char} (hopen : nest.step outer c ≠ []) :
    (nest.step outer c).getLast? = (nest :: outer).getLast? := by
  rcases nest.step_eq_or_suffix outer c with houter | ⟨inner, hinner⟩
  · rw [houter] at hopen ⊢
    rw [List.getLast?_cons_of_ne_nil hopen]
  · rw [← hinner, List.getLast?_append, List.getLast?_cons]
    rfl

/-- What ends the outermost template literal is its mark. -/
theorem Nest.eq_mark_of_step
    {nest : Nest} {outer : List Nest} {c : Char}
    (hnests : (nest :: outer).getLast? = some .template) (hclosed : nest.step outer c = []) :
    c = '\x60' := by
  rcases nest.step_eq_or_suffix outer c with houter | hsuffix
  · rw [hclosed] at houter
    subst houter
    obtain rfl : nest = .template := Option.some.inj hnests
    by_contra hc
    simp [step, hc] at hclosed
  · rw [hclosed, List.suffix_nil] at hsuffix
    contradiction

/-- A template literal that is followed by something ends with its mark. -/
theorem getLast?_of_closeWidth
    {nests : List Nest} {body : List Char} {c : Char} {rest : List Char}
    (hnests : nests.getLast? = some .template)
    (hclosed : closeWidth nests (body ++ c :: rest) = body.length) :
    body.getLast? = some '\x60' := by
  fun_induction closeWidth nests body with
  | case1 body => contradiction
  | case2 =>
      have hnone := eq_nil_of_closeWidth_eq_zero hclosed
      contradiction
  | case3 nest outer b =>
      rw [Nest.eq_mark_of_step hnests (closeWidth_eq_one hclosed).2]
      rfl
  | case4 nest outer c d rest hescape ih =>
      rw [List.cons_append, List.cons_append, closeWidth_escape hescape] at hclosed
      have hlast := ih hnests (Nat.add_right_cancel hclosed)
      simp [List.getLast?_cons, hlast]
  | case5 nest outer c d rest hescape hopens ih =>
      rw [List.cons_append, List.cons_append, closeWidth_opens hescape hopens] at hclosed
      have hlast := ih (by simpa using hnests) (Nat.add_right_cancel hclosed)
      simp [List.getLast?_cons, hlast]
  | case6 nest outer c d rest hescape hopens ih =>
      rw [List.cons_append, List.cons_append, closeWidth_step hescape hopens,
        ← List.cons_append] at hclosed
      have hlater := Nat.add_right_cancel hclosed
      have hopen : nest.step outer c ≠ [] := by
        intro hnone
        rw [hnone, closeWidth_nil] at hlater
        contradiction
      have hlast := ih ((Nest.getLast?_step hopen).trans hnests) hlater
      rw [List.getLast?_cons_cons, hlast]

/-! ## Regular expressions -/

/-- A slash behind the text ends a regular expression, together with the word characters behind the
slash. -/
def RegexEnds (inBrackets : Bool) (inner : List Char) : Prop :=
  ∀ flags, regexWidth? inBrackets (inner ++ '/' :: flags) =
    some (inner.length + 1 + wordWidth flags)

theorem regexWidth?_cons {inBrackets : Bool} {c : Char} (hescape : c = '\\' → False)
    (rest : List Char) :
    regexWidth? inBrackets (c :: rest) =
      if c == '\n' then none
      else if c == '[' then (regexWidth? true rest).map (· + 1)
      else if c == ']' then (regexWidth? false rest).map (· + 1)
      else if c == '/' && !inBrackets then some (1 + wordWidth rest)
      else (regexWidth? inBrackets rest).map (· + 1) := by
  rw [regexWidth?]
  exact hescape

theorem RegexEnds.cons
    {inBrackets later : Bool} {c : Char} {inner : List Char} (hlater : RegexEnds later inner)
    (hstep : ∀ rest, regexWidth? inBrackets (c :: rest) = (regexWidth? later rest).map (· + 1)) :
    RegexEnds inBrackets (c :: inner) := by
  intro flags
  rw [List.cons_append, hstep, hlater, Option.map_some, List.length_cons, Option.some.injEq]
  omega

theorem RegexEnds.escape
    {inBrackets : Bool} {inner : List Char} (hlater : RegexEnds inBrackets inner) (d : Char) :
    RegexEnds inBrackets ('\\' :: d :: inner) := by
  intro flags
  rw [List.cons_append, List.cons_append, regexWidth?, hlater, Option.map_some, List.length_cons,
    List.length_cons, Option.some.injEq]
  omega

theorem exists_of_regexWidth?
    {inBrackets : Bool} {text : List Char} {width : Nat}
    (hwidth : regexWidth? inBrackets text = some width) :
    ∃ inner flags, text = inner ++ '/' :: flags ∧ RegexEnds inBrackets inner := by
  fun_induction regexWidth? inBrackets text generalizing width with
  | case1 => contradiction
  | case2 => contradiction
  | case3 inBrackets d rest ih =>
      obtain ⟨later, hlater, -⟩ := Option.map_eq_some_iff.mp hwidth
      obtain ⟨inner, flags, rfl, hends⟩ := ih hlater
      exact ⟨'\\' :: d :: inner, flags, rfl, hends.escape d⟩
  | case4 => contradiction
  | case5 inBrackets c rest hescape hbreak hopens ih =>
      obtain ⟨later, hlater, -⟩ := Option.map_eq_some_iff.mp hwidth
      obtain ⟨inner, flags, rfl, hends⟩ := ih hlater
      refine ⟨c :: inner, flags, rfl, hends.cons fun rest => ?_⟩
      rw [regexWidth?_cons hescape, if_neg hbreak, if_pos hopens]
  | case6 inBrackets c rest hescape hbreak hopens hcloses ih =>
      obtain ⟨later, hlater, -⟩ := Option.map_eq_some_iff.mp hwidth
      obtain ⟨inner, flags, rfl, hends⟩ := ih hlater
      refine ⟨c :: inner, flags, rfl, hends.cons fun rest => ?_⟩
      rw [regexWidth?_cons hescape, if_neg hbreak, if_neg hopens, if_pos hcloses]
  | case7 inBrackets c rest hescape hbreak hopens hcloses hends =>
      have hslash : c = '/' := by
        rw [Bool.and_eq_true, beq_iff_eq] at hends
        exact hends.1
      subst hslash
      refine ⟨[], rest, rfl, fun flags => ?_⟩
      rw [List.nil_append, regexWidth?_cons hescape, if_neg hbreak, if_neg hopens, if_neg hcloses,
        if_pos hends]
      rfl
  | case8 inBrackets c rest hescape hbreak hopens hcloses hinner ih =>
      obtain ⟨later, hlater, -⟩ := Option.map_eq_some_iff.mp hwidth
      obtain ⟨inner, flags, rfl, hends⟩ := ih hlater
      refine ⟨c :: inner, flags, rfl, hends.cons fun rest => ?_⟩
      rw [regexWidth?_cons hescape, if_neg hbreak, if_neg hopens, if_neg hcloses, if_neg hinner]

end Stencil.Script
