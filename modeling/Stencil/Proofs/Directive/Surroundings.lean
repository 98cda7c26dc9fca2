import Stencil.Proofs.Directive.Partition

/-!
# A directive in its surroundings

A directive that closes outside of its quoted strings is read alike wherever it stands: stray
quotes and closing marks before it and anything at all behind it leave it as it is, and what stands
behind it is read as if it stood alone.

The search for a close looks ahead over the whole rest of the text, so the point is that it never
comes to what stands behind the directive.
-/

namespace Stencil.Directive

open Stencil.Text

/-- No other opening mark stands in the directive, and its first closing mark outside of quoted
strings is its end. -/
structure WellClosed (directive : List Char) : Prop where
  begins : openMark <+: directive
  once : ¬ openMark <:+: directive.drop 1
  closes : unquotedClose? none (directive.drop 2) = some (directive.length - 4)

theorem WellClosed.exists_eq_append
    {directive : List Char} (hdirective : WellClosed directive) :
    ∃ inside, directive = openMark ++ (inside ++ closeMark) ∧
      unquotedClose? none (inside ++ closeMark) = some inside.length ∧
      ¬ openMark <:+: '{' :: inside := by
  have hcloses := hdirective.closes
  obtain ⟨inside, after, hwhole, hinside⟩ :=
    exists_marked hdirective.begins (prefix_drop_of_unquotedClose? hcloses)
  have hlength := congrArg List.length hwhole
  have hnone : after = [] := by
    simp only [List.length_append, openMark, closeMark, List.length_cons, List.length_nil,
      hinside] at hlength
    exact List.length_eq_zero_iff.mp (by omega)
  subst hnone
  rw [List.append_nil, List.append_assoc] at hwhole
  refine ⟨inside, hwhole, ?_, ?_⟩
  · rw [← hinside, hwhole] at hcloses
    exact hcloses
  · intro hinfix
    apply hdirective.once
    rw [hwhole]
    have hdrop : (openMark ++ (inside ++ closeMark)).drop 1 = '{' :: inside ++ closeMark := rfl
    rw [hdrop]
    exact hinfix.trans (List.prefix_append _ _).isInfix

/-! ## Looking ahead -/

/-- A close that was found is found again, whatever follows. -/
theorem unquotedClose?_append
    {quote : Option Char} {body : List Char} {close : Nat}
    (hclose : unquotedClose? quote body = some close) (after : List Char) :
    unquotedClose? quote (body ++ after) = some close := by
  fun_induction unquotedClose? quote body generalizing close with
  | case1 => contradiction
  | case2 => contradiction
  | case3 c q hbackslash escaped rest ih =>
      obtain ⟨later, hlater, rfl⟩ := Option.map_eq_some_iff.mp hclose
      simp only [List.cons_append, unquotedClose?, if_pos hbackslash, ih hlater, Option.map_some]
  | case4 c rest q hbackslash ih =>
      obtain ⟨later, hlater, rfl⟩ := Option.map_eq_some_iff.mp hclose
      rw [List.cons_append, unquotedClose?.eq_def]
      simp only [if_neg hbackslash, ih hlater, Option.map_some]
  | case5 c rest hquote ih =>
      obtain ⟨later, hlater, rfl⟩ := Option.map_eq_some_iff.mp hclose
      simp only [List.cons_append, unquotedClose?, if_pos hquote, ih hlater, Option.map_some]
  | case6 c rest hquote hbegins =>
      have hlonger : closeMark.isPrefixOf (c :: (rest ++ after)) := by
        rw [List.isPrefixOf_iff_prefix] at hbegins ⊢
        exact hbegins.trans (List.prefix_append (c :: rest) after)
      simp only [List.cons_append, unquotedClose?, if_neg hquote, if_pos hlonger, hclose]
  | case7 c rest hquote hbegins ih =>
      obtain ⟨later, hlater, rfl⟩ := Option.map_eq_some_iff.mp hclose
      have hshort : ¬ closeMark.isPrefixOf (c :: (rest ++ after)) := by
        rw [List.isPrefixOf_iff_prefix] at hbegins ⊢
        intro hlonger
        cases rest with
        | nil => contradiction
        | cons d rest =>
            apply hbegins
            have hprefix : c :: d :: rest <+: c :: (d :: rest ++ after) :=
              List.prefix_append (c :: d :: rest) after
            exact List.prefix_of_prefix_length_le hlonger hprefix (by simp [closeMark])
      simp only [List.cons_append, unquotedClose?, if_neg hquote, if_neg hshort, ih hlater,
        Option.map_some]

theorem closePosition?_append
    {body : List Char} {close : Nat} (hclose : unquotedClose? none body = some close)
    (after : List Char) : closePosition? (body ++ after) = some close := by
  rw [closePosition?, unquotedClose?_append hclose after, Option.some_or]

/-! ## Finding the directive -/

theorem innermost?_of_wellClosed
    {inside : List Char} (hcloses : unquotedClose? none (inside ++ closeMark) = some inside.length)
    (honce : ¬ openMark <:+: '{' :: inside) (after : List Char) :
    innermost? (openMark ++ (inside ++ closeMark) ++ after) = some ⟨0, inside.length⟩ := by
  refine innermost?_eq_some_iff.mpr
    ⟨inside.length, closePosition?_append hcloses after, .inl ⟨?_, rfl⟩⟩
  have hsearched : ((openMark ++ (inside ++ closeMark) ++ after).drop 1).take
      (inside.length + 1) = '{' :: inside := by simp [openMark]
  rw [hsearched]
  exact lastIndexOf?_eq_none_iff.mpr honce

/-- A brace directly before the directive makes an opening mark with it, but the later one
counts. -/
theorem innermost?_of_brace
    {inside : List Char} (hcloses : unquotedClose? none (inside ++ closeMark) = some inside.length)
    (honce : ¬ openMark <:+: '{' :: inside) (after : List Char) :
    innermost? ('{' :: (openMark ++ (inside ++ closeMark) ++ after)) =
      some ⟨1, inside.length⟩ := by
  have houter : unquotedClose? none ('{' :: (inside ++ closeMark)) = some (inside.length + 1) := by
    have hnoClose : ¬ closeMark.isPrefixOf ('{' :: (inside ++ closeMark)) := by
      simp [closeMark, List.isPrefixOf]
    have hnoQuote : ¬ ('{' == '"' || '{' == '\'') := by decide
    simp only [unquotedClose?, if_neg hnoQuote, if_neg hnoClose, hcloses, Option.map_some]
  refine innermost?_eq_some_iff.mpr ⟨inside.length + 1, closePosition?_append houter after,
    .inr ⟨0, inside.length, ?_, closePosition?_append hcloses after, rfl⟩⟩
  have hsearched : (('{' :: (openMark ++ (inside ++ closeMark) ++ after)).drop 1).take
      (inside.length + 2) = '{' :: '{' :: inside := by simp [openMark]
  rw [hsearched, lastIndexOf?, lastIndexOf?_eq_none_iff.mpr honce]
  rfl

/-! ## Positions -/

/-- The token in a text that has so many characters more before it. -/
def Token.shift (offset : Nat) (token : Token) : Token :=
  { token with start := offset + token.start }

def shiftFault (offset : Nat) : TemplateFault → TemplateFault
  | .malformedDirective directive defect position =>
    .malformedDirective directive defect (position.map ((offset : Int) + ·))
  | fault => fault

def shifted (offset : Nat) : Except TemplateFault (List Token) → Except TemplateFault (List Token)
  | .ok found => .ok (found.map (Token.shift offset))
  | .error fault => .error (shiftFault offset fault)

theorem plainToken_add (offset start : Nat) (text : List Char) :
    plainToken (offset + start) text = (plainToken start text).map (Token.shift offset) := by
  unfold plainToken
  split <;> rfl

theorem shifted_map
    (offset start place : Nat) (before directive : List Char)
    (scan : Except TemplateFault (List Token)) :
    shifted offset (scan.map fun later =>
        plainToken start before ++ classify directive place :: later) =
      (shifted offset scan).map fun later =>
        plainToken (offset + start) before ++ classify directive (offset + place) :: later := by
  cases scan with
  | error fault => rfl
  | ok later =>
      simp only [shifted, Except.map, List.map_append, List.map_cons, plainToken_add, Token.shift,
        classify]

/-- The position at which a text begins changes nothing but the positions. -/
theorem tokensFrom_add (offset start : Nat) (text : List Char) :
    tokensFrom (offset + start) text = shifted offset (tokensFrom start text) := by
  induction start, text using scan_induction with
  | plain start text hmark =>
      rw [tokensFrom_of_none hmark, tokensFrom_of_none hmark, plainToken_add]
      rfl
  | unterminated start text mark hmark hspan =>
      rw [tokensFrom_of_unterminated hmark hspan, tokensFrom_of_unterminated hmark hspan]
      simp only [shifted, shiftFault, Option.map_some, Nat.add_assoc, Int.natCast_add]
  | step start text next rest hstep ih =>
      cases hstep with
      | behind hmark hspan =>
          rw [tokensFrom_of_span hmark hspan, tokensFrom_of_span hmark hspan, shifted_map, ← ih]
          simp only [Nat.add_assoc]

/-! ## The directive and what follows it -/

/-- The scan of a text comes to the directive, whether or not a brace stands directly before it. -/
theorem exists_span_of_wellClosed
    {before directive : List Char} (hbefore : ¬ openMark <:+: before)
    (hdirective : WellClosed directive) (after : List Char) :
    ∃ mark span, indexOf? openMark (before ++ directive ++ after) = some mark ∧
      innermost? ((before ++ directive ++ after).drop mark) = some span ∧
      mark + span.offset = before.length ∧ span.width = directive.length := by
  obtain ⟨inside, rfl, hcloses, honce⟩ := hdirective.exists_eq_append
  have hwidth : inside.length + openMark.length + closeMark.length =
      (openMark ++ (inside ++ closeMark)).length := by
    simp only [List.length_append]
    omega
  by_cases hbrace : openMark <:+: before ++ ['{']
  · have hends : openMark <:+ before ++ ['{'] :=
      (List.infix_concat_iff.mp hbrace).resolve_right hbefore
    obtain ⟨passed, hpassed⟩ := hends
    have hsplit : before = passed ++ ['{'] := by
      have hconcat : (passed ++ ['{']) ++ ['{'] = before ++ ['{'] := by
        rw [List.append_assoc]
        exact hpassed
      exact (List.append_cancel_right hconcat).symm
    subst hsplit
    refine ⟨passed.length, ⟨1, inside.length⟩, ?_, ?_, ?_, hwidth⟩
    · have hfirst := @indexOf?_append_of_first openMark passed hbefore
        ('{' :: (inside ++ closeMark) ++ after)
      simpa [openMark] using hfirst
    · have hdrop : (passed ++ ['{'] ++ (openMark ++ (inside ++ closeMark)) ++ after).drop
          passed.length = '{' :: (openMark ++ (inside ++ closeMark) ++ after) := by
        rw [List.append_assoc, List.append_assoc, List.drop_left]
        rfl
      rw [hdrop]
      exact innermost?_of_brace hcloses honce after
    · simp
  · refine ⟨before.length, ⟨0, inside.length⟩, ?_, ?_, rfl, hwidth⟩
    · have hfirst := @indexOf?_append_of_first openMark before hbrace
        (inside ++ closeMark ++ after)
      simpa only [List.append_assoc] using hfirst
    · rw [List.append_assoc, List.drop_left]
      exact innermost?_of_wellClosed hcloses honce after

/-- Before a directive that closes outside of quoted strings there is at most plain text, and
behind it everything is read as if it stood alone, with the positions moved on. -/
theorem tokens_append_wellClosed_append
    {before directive : List Char} (hbefore : ¬ openMark <:+: before)
    (hdirective : WellClosed directive) (after : List Char) :
    tokens (before ++ directive ++ after) =
      (shifted (before.length + directive.length) (tokens after)).map fun later =>
        plainToken 0 before ++ classify directive before.length :: later := by
  obtain ⟨mark, span, hmark, hspan, hoffset, hwidth⟩ :=
    exists_span_of_wellClosed hbefore hdirective after
  have htake : (before ++ directive ++ after).take before.length = before := by
    rw [List.append_assoc, List.take_left]
  have hdrop : (before ++ directive ++ after).drop before.length = directive ++ after := by
    rw [List.append_assoc, List.drop_left]
  rw [tokens, tokensFrom_of_span hmark hspan, hoffset, hwidth, htake, hdrop, List.take_left,
    List.drop_left, Nat.zero_add, tokens, ← tokensFrom_add, Nat.add_zero]

/-- A quote and a brace stand before the directive, which holds a closing mark in a string, and the
same quote behind it opens nothing. -/
theorem tokens_append_wellClosed_append_brace :
    ¬ openMark <:+: ['\'', '{'] ∧
      WellClosed (marked " var: $a[\"\x7d\x7d\"] ") ∧
      tokens (['\'', '{'] ++ marked " var: $a[\"\x7d\x7d\"] " ++ '\'' :: marked "/if") =
        .ok [⟨0, ['\'', '{'], .text⟩,
          ⟨2, marked " var: $a[\"\x7d\x7d\"] ", .variable "$a[\"\x7d\x7d\"]".toList⟩,
          ⟨21, ['\''], .text⟩, ⟨22, marked "/if", .endBranch⟩] := by
  have hbefore : ¬ openMark <:+: ['\'', '{'] := by decide
  have hdirective : WellClosed (marked " var: $a[\"\x7d\x7d\"] ") := by
    constructor <;> decide +kernel
  refine ⟨hbefore, hdirective, ?_⟩
  rw [tokens_append_wellClosed_append hbefore hdirective]
  decide +kernel

end Stencil.Directive
