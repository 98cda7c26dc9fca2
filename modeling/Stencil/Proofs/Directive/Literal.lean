import Stencil.Directive.Expression
import Mathlib.Tactic.Common

/-!
# String literals in expressions

A string literal stands between two quotes of one kind; a backslash in it takes the next character
with it.  The text before a place decides whether the place lies in a literal.
-/

namespace Stencil.Directive

open Stencil.Text

def isQuote (c : Char) : Bool :=
  c == '"' || c == '\''

/-- What stands between the quotes of a literal. -/
inductive LiteralInside (quote : Char) : List Char → Prop where
  | nil : LiteralInside quote []
  | escaped {c : Char} {rest : List Char} (hrest : LiteralInside quote rest) :
      LiteralInside quote ('\\' :: c :: rest)
  | plain {c : Char} {rest : List Char} (hquote : c ≠ quote) (hbackslash : c ≠ '\\')
      (hrest : LiteralInside quote rest) : LiteralInside quote (c :: rest)

/-- A text at whose end no literal is open. -/
inductive LiteralsClosed : List Char → Prop where
  | nil : LiteralsClosed []
  | plain {c : Char} {rest : List Char} (hc : isQuote c = false) (hrest : LiteralsClosed rest) :
      LiteralsClosed (c :: rest)
  | literal {quote : Char} {inside rest : List Char} (hquote : isQuote quote = true)
      (hinside : LiteralInside quote inside) (hrest : LiteralsClosed rest) :
      LiteralsClosed (quote :: (inside ++ quote :: rest))

theorem isQuote_ne_backslash {quote : Char} (hquote : isQuote quote = true) : quote ≠ '\\' := by
  rintro rfl
  contradiction

theorem stringWidth_cons {quote c : Char} (hc : c ≠ '\\') (rest : List Char) :
    stringWidth quote (c :: rest) = if c == quote then 1 else stringWidth quote rest + 1 :=
  stringWidth.eq_4 quote c rest hc

theorem stringWidth_append
    {quote : Char} {inside : List Char} (hquote : isQuote quote = true)
    (hinside : LiteralInside quote inside) (rest : List Char) :
    stringWidth quote (inside ++ quote :: rest) = inside.length + 1 := by
  induction hinside with
  | nil => rw [List.nil_append, stringWidth_cons (isQuote_ne_backslash hquote)]; simp
  | escaped _ ih => simp only [List.cons_append, stringWidth, ih, List.length_cons]
  | plain hc hbackslash _ ih =>
      rw [List.cons_append, stringWidth_cons hbackslash, ih]
      simp [hc]

theorem stringWidth_cases (quote : Char) (text : List Char) :
    (∃ inside rest,
      LiteralInside quote inside ∧ text = inside ++ quote :: rest ∧
        stringWidth quote text = inside.length + 1) ∨
      stringWidth quote text = text.length := by
  fun_induction stringWidth quote text with
  | case1 => exact .inr rfl
  | case2 => exact .inr rfl
  | case3 c rest ih =>
      rcases ih with ⟨inside, later, hinside, rfl, hwidth⟩ | hwidth
      · exact .inl ⟨_, later, .escaped hinside, rfl, by rw [hwidth]; rfl⟩
      · exact .inr (by rw [hwidth]; rfl)
  | case4 c rest hbackslash hc =>
      rw [beq_iff_eq] at hc
      subst c
      exact .inl ⟨[], rest, .nil, rfl, rfl⟩
  | case5 c rest hbackslash hc ih =>
      rw [beq_iff_eq] at hc
      rcases ih with ⟨inside, later, hinside, rfl, hwidth⟩ | hwidth
      · exact .inl ⟨_, later, .plain hc hbackslash hinside, rfl, by rw [hwidth]; rfl⟩
      · exact .inr (by rw [hwidth]; rfl)

theorem drop_stringWidth
    {quote : Char} {inside : List Char} (hquote : isQuote quote = true)
    (hinside : LiteralInside quote inside) (rest : List Char) :
    (inside ++ quote :: rest).drop (stringWidth quote (inside ++ quote :: rest)) = rest := by
  rw [stringWidth_append hquote hinside]
  simp

theorem take_stringWidth
    {quote : Char} {inside : List Char} (hquote : isQuote quote = true)
    (hinside : LiteralInside quote inside) (rest : List Char) :
    (inside ++ quote :: rest).take (stringWidth quote (inside ++ quote :: rest)) =
      inside ++ [quote] := by
  rw [stringWidth_append hquote hinside, List.append_cons, List.take_left' (by simp)]

theorem stringWidth_of_unclosed
    {quote : Char} {rest : List Char}
    (hunclosed : ∀ inside later, LiteralInside quote inside → rest ≠ inside ++ quote :: later) :
    stringWidth quote rest = rest.length := by
  rcases stringWidth_cases quote rest with ⟨inside, later, hinside, hrest, _⟩ | hwidth
  · exact absurd hrest (hunclosed inside later hinside)
  · exact hwidth

theorem LiteralsClosed.plain_append
    {text rest : List Char} (htext : ∀ c ∈ text, isQuote c = false) (hrest : LiteralsClosed rest) :
    LiteralsClosed (text ++ rest) := by
  induction text with
  | nil => exact hrest
  | cons c text ih =>
      rw [List.forall_mem_cons] at htext
      exact .plain htext.1 (ih htext.2)

theorem LiteralsClosed.of_cons
    {c : Char} {rest : List Char} (hc : isQuote c = false) (hclosed : LiteralsClosed (c :: rest)) :
    LiteralsClosed rest := by
  generalize htext : c :: rest = text at hclosed
  cases hclosed with
  | nil => contradiction
  | plain _ hrest =>
      rw [List.cons.injEq] at htext
      rw [htext.2]
      exact hrest
  | literal hquote =>
      rw [List.cons.injEq] at htext
      rw [← htext.1, hc] at hquote
      contradiction

theorem LiteralsClosed.of_plain_append
    {text rest : List Char} (htext : ∀ c ∈ text, isQuote c = false)
    (hclosed : LiteralsClosed (text ++ rest)) : LiteralsClosed rest := by
  induction text with
  | nil => exact hclosed
  | cons c text ih =>
      rw [List.forall_mem_cons] at htext
      exact ih htext.2 (hclosed.of_cons htext.1)

theorem LiteralsClosed.exists_literal
    {quote : Char} {rest : List Char} (hquote : isQuote quote = true)
    (hclosed : LiteralsClosed (quote :: rest)) :
    ∃ inside later,
      LiteralInside quote inside ∧ rest = inside ++ quote :: later ∧ LiteralsClosed later := by
  generalize htext : quote :: rest = text at hclosed
  cases hclosed with
  | nil => contradiction
  | plain hc _ =>
      rw [List.cons.injEq] at htext
      rw [← htext.1, hquote] at hc
      contradiction
  | literal _ hinside hlater =>
      rw [List.cons.injEq] at htext
      obtain ⟨rfl, rfl⟩ := htext
      exact ⟨_, _, hinside, rfl, hlater⟩

theorem LiteralsClosed.of_literal
    {quote : Char} {inside rest : List Char} (hquote : isQuote quote = true)
    (hinside : LiteralInside quote inside)
    (hclosed : LiteralsClosed (quote :: (inside ++ quote :: rest))) : LiteralsClosed rest := by
  obtain ⟨inside', later, hinside', heq, hlater⟩ := hclosed.exists_literal hquote
  have hlength := stringWidth_append hquote hinside rest
  rw [heq, stringWidth_append hquote hinside', Nat.add_right_cancel_iff] at hlength
  have hrest := (List.append_inj heq hlength.symm).2
  rw [List.cons.injEq] at hrest
  rw [hrest.2]
  exact hlater

/-- The part stands in the text at a place where no literal is open. -/
def OccursOutside (part text : List Char) : Prop :=
  ∃ before after, text = before ++ part ++ after ∧ LiteralsClosed before

theorem occursOutside_append (part after : List Char) : OccursOutside part (part ++ after) :=
  ⟨[], after, rfl, .nil⟩

theorem OccursOutside.plain_append
    {part text rest : List Char} (htext : ∀ c ∈ text, isQuote c = false)
    (hrest : OccursOutside part rest) : OccursOutside part (text ++ rest) := by
  obtain ⟨before, after, rfl, hbefore⟩ := hrest
  exact ⟨text ++ before, after, by simp only [List.append_assoc], hbefore.plain_append htext⟩

theorem OccursOutside.cons
    {part rest : List Char} {c : Char} (hc : isQuote c = false) (hrest : OccursOutside part rest) :
    OccursOutside part (c :: rest) := by
  have hplain : ∀ d ∈ [c], isQuote d = false := by simpa using hc
  exact hrest.plain_append hplain

theorem OccursOutside.literal
    {part inside rest : List Char} {quote : Char} (hquote : isQuote quote = true)
    (hinside : LiteralInside quote inside) (hrest : OccursOutside part rest) :
    OccursOutside part (quote :: (inside ++ quote :: rest)) := by
  obtain ⟨before, after, rfl, hbefore⟩ := hrest
  exact ⟨_, after, by simp, .literal hquote hinside hbefore⟩

/-- A private variable is named outside of literals. -/
def NamesPrivate (expression : List Char) : Prop :=
  OccursOutside ['$', '_'] expression

end Stencil.Directive
