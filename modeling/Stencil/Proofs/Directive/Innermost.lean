import Stencil.Proofs.Directive.Literal
import Stencil.Proofs.Directive.Partition
import Stencil.Proofs.Except

/-!
# Opening marks in a directive

The opening mark of a directive is chosen by the close of an earlier one, and the directive itself
ends where a new search finds a close.  The new search begins outside of quoted strings, so it can
pass over the close that the choice was made by: it then stands in a string of the directive, and
opening marks may follow it there.  In no other way does a directive hold an opening mark behind
its first characters.
-/

namespace Stencil.Directive

open Stencil.Text

/-- A closing mark stands in a quoted string of the directive, and an opening mark behind it. -/
def Reopens (directive : List Char) : Prop :=
  ∃ inside later, directive = openMark ++ inside ++ closeMark ++ later ∧
    ¬ LiteralsClosed inside ∧ openMark <:+: later

/-! ## Closing marks outside of literals -/

theorem unquotedClose?_literal
    {quote : Char} {inside : List Char} (hquote : isQuote quote = true)
    (hinside : LiteralInside quote inside) (rest : List Char) :
    unquotedClose? (some quote) (inside ++ quote :: rest) =
      (unquotedClose? none rest).map (· + (inside.length + 1)) := by
  induction hinside with
  | nil =>
      have hbackslash : ¬ (quote == '\\') = true := by simpa using isQuote_ne_backslash hquote
      rw [List.nil_append, unquotedClose?.eq_def]
      simp only [if_neg hbackslash, beq_self_eq_true, if_true, List.length_nil, Nat.zero_add]
  | @escaped c inside _ ih =>
      simp only [List.cons_append, unquotedClose?, beq_self_eq_true, if_true, ih, Option.map_map,
        List.length_cons]
      congr 1
  | @plain c inside hc hbackslash _ ih =>
      have hnoBackslash : ¬ (c == '\\') = true := by simpa using hbackslash
      have hnoQuote : ¬ (c == quote) = true := by simpa using hc
      rw [List.cons_append, unquotedClose?.eq_def]
      simp only [if_neg hnoBackslash, if_neg hnoQuote, ih, Option.map_map, List.length_cons]
      congr 1

/-- A closing mark that no literal holds is not passed over. -/
theorem exists_unquotedClose?_le
    {before : List Char} (hbefore : LiteralsClosed before) (after : List Char) :
    ∃ close, unquotedClose? none (before ++ closeMark ++ after) = some close ∧
      close ≤ before.length := by
  induction hbefore with
  | nil => exact ⟨0, rfl, Nat.le_refl 0⟩
  | @plain c rest hc _ ih =>
      obtain ⟨close, hclose, hle⟩ := ih
      rw [isQuote, Bool.eq_false_iff] at hc
      by_cases hbegins : closeMark.isPrefixOf (c :: (rest ++ closeMark ++ after))
      · refine ⟨0, ?_, Nat.zero_le _⟩
        simp only [List.cons_append, unquotedClose?, if_neg hc, if_pos hbegins]
      · refine ⟨close + 1, ?_, Nat.succ_le_succ hle⟩
        simp only [List.cons_append, unquotedClose?, if_neg hc, if_neg hbegins, hclose,
          Option.map_some]
  | @literal quote inside rest hquote hinside _ ih =>
      obtain ⟨close, hclose, hle⟩ := ih
      refine ⟨close + (inside.length + 1) + 1, ?_, ?_⟩
      · have hopens : (quote == '"' || quote == '\'') = true := hquote
        simp only [List.cons_append, List.append_assoc, unquotedClose?, if_pos hopens]
        rw [unquotedClose?_literal hquote hinside, ← List.append_assoc, hclose]
        rfl
      · simp only [List.length_cons, List.length_append]
        omega

/-! ## Marks at positions -/

/-- A mark that begins in the front of a text and ends there is one of the front. -/
theorem prefix_drop_append_iff
    {mark front : List Char} {place : Nat} (hfits : place + mark.length ≤ front.length)
    (rest : List Char) : mark <+: (front ++ rest).drop place ↔ mark <+: front.drop place := by
  rw [List.drop_append_of_le_length (by omega)]
  constructor
  · intro hmark
    refine List.prefix_of_prefix_length_le hmark (List.prefix_append _ rest) ?_
    rw [List.length_drop]
    omega
  · exact fun hmark => hmark.trans (List.prefix_append _ rest)

/-! ## The two searches -/

/-- An opening mark and a closing mark share no character. -/
theorem add_two_le_of_marks
    {text : List Char} {place close : Nat} (hopen : openMark <+: text.drop place)
    (hclose : closeMark <+: text.drop close) : place + 2 ≤ close ∨ close + 2 ≤ place := by
  have hopened (offset : Nat) (hoffset : offset < 2) : text[place + offset]? = some '{' := by
    obtain ⟨after, hafter⟩ := hopen
    rw [← List.getElem?_drop, ← hafter]
    match offset, hoffset with
    | 0, _ => rfl
    | 1, _ => rfl
  have hclosed (offset : Nat) (hoffset : offset < 2) : text[close + offset]? = some '}' := by
    obtain ⟨after, hafter⟩ := hclose
    rw [← List.getElem?_drop, ← hafter]
    match offset, hoffset with
    | 0, _ => rfl
    | 1, _ => rfl
  have hapart (place' close' : Nat) (hplace : place' < 2) (hclose : close' < 2) :
      place + place' ≠ close + close' := by
    intro hsame
    have hone := hopened place' hplace
    rw [hsame, hclosed close' hclose] at hone
    contradiction
  have := hapart 0 0 (by omega) (by omega)
  have := hapart 1 0 (by omega) (by omega)
  have := hapart 0 1 (by omega) (by omega)
  omega

/-- An opening mark that the search from the end did not find stands behind the close. -/
theorem close_le_of_not_prefix
    {text : List Char} {place close : Nat} (hclose : closeMark <+: text.drop (close + 2))
    (hplace : 0 < place) (hopen : openMark <+: text.drop place)
    (hnone : ¬ openMark <+: ((text.drop 1).take (close + 1)).drop (place - 1)) :
    close + 4 ≤ place := by
  rcases add_two_le_of_marks hopen hclose with hbefore | hbehind
  · have hdrop : (text.drop 1).drop (place - 1) = text.drop place := by
      rw [List.drop_drop]
      congr 1
      omega
    rw [List.drop_take, hdrop, List.prefix_take_iff] at hnone
    refine absurd ⟨hopen, ?_⟩ hnone
    simp only [openMark, List.length_cons, List.length_nil]
    omega
  · exact hbehind

/-- The directive begins with the last opening mark before the close of the first one, and ends
with the close that is found behind its own mark. -/
theorem exists_close_of_innermost?
    {text : List Char} {span : Span} (hspan : innermost? text = some span) :
    closePosition? (text.drop (span.offset + 2)) = some span.inside ∧
      ∃ close, closeMark <+: text.drop (close + 2) ∧ span.offset ≤ close ∧
        ∀ place, span.offset < place → openMark <+: text.drop place → close + 4 ≤ place := by
  obtain ⟨close, hclose, hspan⟩ := innermost?_eq_some_iff.mp hspan
  have hmark : closeMark <+: text.drop (close + 2) := by
    have hfound := prefix_drop_of_closePosition? hclose
    rwa [List.drop_drop, Nat.add_comm] at hfound
  rcases hspan with ⟨hnone, rfl⟩ | ⟨inner, second, hinner, hsecond, rfl⟩
  · refine ⟨hclose, close, hmark, Nat.zero_le close, fun place hplace hopen => ?_⟩
    refine close_le_of_not_prefix hmark hplace hopen fun hbegins => ?_
    exact lastIndexOf?_eq_none_iff.mp hnone
      (hbegins.isInfix.trans (List.drop_suffix _ _).isInfix)
  · have hbound := openMark_fits (prefix_drop_of_lastIndexOf? hinner)
    simp only [List.length_take, List.length_drop] at hbound
    have hoffset : inner + 1 ≤ close := by omega
    refine ⟨hsecond, close, hmark, hoffset, fun place hplace hopen => ?_⟩
    have hbehind : inner + 1 < place := hplace
    refine close_le_of_not_prefix hmark (by omega) hopen ?_
    exact not_prefix_drop_of_lastIndexOf?_lt (by decide) hinner (by omega)

/-- A close that the search behind the opening mark passed over stands in a string. -/
theorem reopens_of_passed
    {directive after : List Char} {inside passed place : Nat} (hbegins : openMark <+: directive)
    (hclose : closePosition? ((directive ++ after).drop 2) = some inside) (hpassed : passed < inside)
    (hmark : closeMark <+: directive.drop (passed + 2)) (hplace : passed + 4 ≤ place)
    (hopen : openMark <+: directive.drop place) : Reopens directive := by
  obtain ⟨held, later, rfl, rfl⟩ := exists_marked hbegins (by
    rwa [Nat.add_comm, ← List.drop_drop] at hmark)
  refine ⟨held, later, rfl, ?_, ?_⟩
  · intro hclosed
    obtain ⟨found, hfound, hle⟩ := exists_unquotedClose?_le hclosed (later ++ after)
    have hbody : (openMark ++ held ++ closeMark ++ later ++ after).drop 2 =
        held ++ closeMark ++ (later ++ after) := by simp [openMark]
    rw [closePosition?, hbody, hfound, Option.some_or, Option.some.injEq] at hclose
    omega
  · have hfront : (openMark ++ held ++ closeMark).length = held.length + 4 := by
      simp only [List.length_append, openMark, closeMark, List.length_cons, List.length_nil]
      omega
    obtain ⟨offset, rfl⟩ := Nat.exists_eq_add_of_le hplace
    rw [← hfront, List.drop_length_add_append] at hopen
    exact hopen.isInfix.trans (List.drop_suffix offset later).isInfix

/-- A later opening mark in the directive stands behind a closing mark that its own search passed
over. -/
theorem reopens_of_innermost?
    {text directive after : List Char} {span : Span} (hspan : innermost? text = some span)
    (hdirective : text.drop span.offset = directive ++ after)
    (hwidth : directive.length = span.width) {place : Nat} (hplace : 0 < place)
    (hopen : openMark <+: directive.drop place) (hbegins : openMark <+: directive) :
    Reopens directive := by
  obtain ⟨hclose, close, hmark, hoffset, hlater⟩ := exists_close_of_innermost? hspan
  have hwidth' : directive.length = span.inside + 4 := hwidth
  have hfits := openMark_fits hopen
  have hplaced : openMark <+: text.drop (span.offset + place) := by
    rwa [← List.drop_drop, hdirective, prefix_drop_append_iff hfits]
  have hbehind := hlater (span.offset + place) (by omega) hplaced
  obtain ⟨passed, rfl⟩ := Nat.exists_eq_add_of_le hoffset
  rw [Nat.add_assoc, ← List.drop_drop, hdirective, prefix_drop_append_iff (by
    simp only [closeMark, List.length_cons, List.length_nil]
    omega)] at hmark
  rw [← List.drop_drop, hdirective] at hclose
  exact reopens_of_passed hbegins hclose (by omega) hmark (by omega) hopen

/-! ## The scan -/

/-- A directive token is what the search finds behind the first opening mark of what is left. -/
theorem exists_span_of_isDirective
    {start : Nat} {text : List Char} {found : List Token}
    (htokens : tokensFrom start text = .ok found) :
    ∀ token ∈ found, token.isDirective →
      ∃ body span after, innermost? body = some span ∧
        body.drop span.offset = token.text ++ after ∧ token.text.length = span.width ∧
        start ≤ token.start ∧ text.drop (token.start - start) = token.text ++ after := by
  induction start, text using scan_induction generalizing found with
  | plain start text hmark =>
      intro token htoken hdirective
      rw [tokensFrom_of_none hmark, Except.ok.injEq] at htokens
      subst htokens
      obtain ⟨rfl, -⟩ := mem_plainToken htoken
      contradiction
  | unterminated start text mark hmark hspan =>
      rw [tokensFrom_of_unterminated hmark hspan] at htokens
      contradiction
  | step start text next rest hstep ih =>
      intro token htoken hdirective
      cases hstep with
      | @behind _ mark _ span hmark hspan =>
          rw [tokensFrom_of_span hmark hspan, map_eq_ok_iff] at htokens
          obtain ⟨later, hlater, rfl⟩ := htokens
          obtain ⟨before, inside, after, hbody, hoffset, hinside⟩ :=
            exists_eq_append_of_innermost? (prefix_drop_of_indexOf? hmark) hspan
          have hbodyLength := congrArg List.length hbody
          simp only [List.length_drop, List.length_append, openMark, closeMark, List.length_cons,
            List.length_nil] at hbodyLength
          have hwidth : span.width = span.inside + 4 := rfl
          rw [List.mem_append, List.mem_cons] at htoken
          rcases htoken with hplain | rfl | htoken
          · obtain ⟨rfl, -⟩ := mem_plainToken hplain
            contradiction
          · refine ⟨text.drop mark, span, (text.drop (mark + span.offset)).drop span.width, hspan,
              ?_, ?_, ?_, ?_⟩
            · rw [List.drop_drop, classify, List.take_append_drop]
            · rw [classify, List.length_take, List.length_drop]
              omega
            · exact Nat.le_add_right start _
            · rw [classify, Nat.add_sub_cancel_left, List.take_append_drop]
          · obtain ⟨body, span', after', hspan', hbody', hwidth', hstart, hdrop⟩ :=
              ih hlater token htoken hdirective
            refine ⟨body, span', after', hspan', hbody', hwidth', by omega, ?_⟩
            rw [← hdrop, List.drop_drop, List.drop_drop]
            congr 1
            omega

/-- A directive stands in the text at its place and ends with the close of its own opening mark, and
a later opening mark in it stands behind a closing mark that one of its strings holds. -/
theorem directive_of_tokens
    {text : List Char} {found : List Token} (hfound : tokens text = .ok found) {token : Token}
    (htoken : token ∈ found) (hdirective : token.isDirective) :
    token.text <+: text.drop token.start ∧
      closePosition? (text.drop (token.start + 2)) = some (token.text.length - 4) ∧
      ∀ place, 0 < place → openMark <+: token.text.drop place → Reopens token.text := by
  obtain ⟨body, span, after, hspan, hbody, hwidth, -, hdrop⟩ :=
    exists_span_of_isDirective hfound token htoken hdirective
  rw [Nat.sub_zero] at hdrop
  have hmarked := (scanned_of_tokensFrom hfound).isMarked token htoken hdirective
  obtain ⟨hclose, -⟩ := exists_close_of_innermost? hspan
  refine ⟨⟨after, hdrop.symm⟩, ?_, ?_⟩
  · have hsame : body.drop (span.offset + 2) = text.drop (token.start + 2) := by
      rw [← List.drop_drop, ← List.drop_drop, hbody, hdrop]
    have hinside : token.text.length - 4 = span.inside := by
      have hwhole : token.text.length = span.inside + 4 := hwidth
      omega
    rw [← hsame, hclose, hinside]
  · intro place hplace hopen
    exact reopens_of_innermost? hspan hbody hwidth hplace hopen hmarked.begins

theorem Positioned.exists_token
    {start place : Nat} {found : List Token} (hfound : Positioned start found)
    (hstart : start ≤ place) (hplace : place < start + (found.flatMap Token.text).length) :
    ∃ token ∈ found, token.start ≤ place ∧ place < token.stop := by
  induction found generalizing start with
  | nil =>
      simp only [List.flatMap_nil, List.length_nil, Nat.add_zero] at hplace
      omega
  | cons token rest ih =>
      obtain ⟨hfirst, hrest⟩ := hfound
      by_cases hin : place < token.stop
      · exact ⟨token, List.mem_cons_self, by omega, hin⟩
      · rw [List.flatMap_cons, List.length_append] at hplace
        have hstop : token.stop = start + token.text.length := by rw [Token.stop, hfirst]
        obtain ⟨other, hother, hin⟩ := ih hrest (Nat.le_of_not_lt hin) (by omega)
        exact ⟨other, List.mem_cons_of_mem token hother, hin⟩

/-- An opening mark of the text that begins in a directive is one of the directive, which ends with
a closing mark. -/
theorem prefix_drop_of_isMarked
    {text directive : List Char} {start position : Nat} (hmarked : IsMarked directive)
    (hdirective : directive <+: text.drop start) (hstart : start ≤ position)
    (hposition : position < start + directive.length) (hopen : openMark <+: text.drop position) :
    openMark <+: directive.drop (position - start) := by
  have hlength := hmarked.length
  obtain ⟨inside, hsplit⟩ := hmarked
  obtain ⟨after, hafter⟩ := hdirective
  have hends : closeMark <+: text.drop (start + (directive.length - 2)) := by
    have hfront : (openMark ++ inside).length = directive.length - 2 := by
      simp only [hsplit, List.length_append, closeMark, List.length_cons, List.length_nil]
      omega
    rw [← hfront, ← List.drop_drop, ← hafter, hsplit, List.append_assoc, List.drop_left]
    exact List.prefix_append closeMark after
  have hbefore : position + 2 ≤ start + directive.length := by
    rcases add_two_le_of_marks hopen hends with hbefore | hbehind <;> omega
  have hplace : start + (position - start) = position := by omega
  have hfits : position - start + openMark.length ≤ directive.length := by
    simp only [openMark, List.length_cons, List.length_nil]
    omega
  rwa [← hplace, ← List.drop_drop, ← hafter, prefix_drop_append_iff hfits] at hopen

/-- A directive holds no opening mark but its first one, unless one stands behind a closing mark in
a string of it.  An opening mark that is followed by another one before its close stands in plain
text, unless it stands in such a directive. -/
theorem opening_marks_of_tokens
    (text : List Char) (found : List Token) (hfound : tokens text = .ok found) :
    (∀ token ∈ found, token.isDirective →
        ((∀ place, openMark <+: token.text.drop place → place = 0) ↔ ¬ Reopens token.text)) ∧
      ∀ place close later,
        openMark <+: text.drop place → closePosition? (text.drop (place + 2)) = some close →
          place < later → later < place + 2 + close → openMark <+: text.drop later →
            ∃ token ∈ found, token.start ≤ place ∧ place < token.stop ∧
              (token.meaning = .text ∨ Reopens token.text) := by
  have hscanned := scanned_of_tokensFrom hfound
  refine ⟨?_, ?_⟩
  · intro token htoken hdirective
    obtain ⟨-, -, hreopens⟩ := directive_of_tokens hfound htoken hdirective
    constructor
    · rintro honce ⟨inside, after, hsplit, -, before, behind, hafter⟩
      have hfront : token.text =
          (openMark ++ inside ++ closeMark ++ before) ++ (openMark ++ behind) := by
        rw [hsplit, ← hafter]
        simp only [List.append_assoc]
      have hzero := honce (openMark ++ inside ++ closeMark ++ before).length (by
        rw [hfront, List.drop_left]
        exact List.prefix_append openMark behind)
      simp only [List.length_append, openMark, List.length_cons] at hzero
      omega
    · intro hnot place hopen
      by_contra hplace
      exact hnot (hreopens place (Nat.pos_of_ne_zero hplace) hopen)
  · intro place close later hopen hclose hlater hbefore hanother
    have hfits := openMark_fits hopen
    obtain ⟨token, htoken, hstart, hstop⟩ := hscanned.positioned.exists_token (Nat.zero_le place)
      (by rw [hscanned.flatMap_text]; omega)
    refine ⟨token, htoken, hstart, hstop, ?_⟩
    by_cases hplain : token.meaning = .text
    · exact .inl hplain
    · have hdirective : token.isDirective := by simpa [Token.isDirective] using hplain
      have hmarked := hscanned.isMarked token htoken hdirective
      obtain ⟨htext, hend, hreopens⟩ := directive_of_tokens hfound htoken hdirective
      have hlength := hmarked.length
      rw [Token.stop] at hstop
      right
      by_cases hfirst : place = token.start
      · subst hfirst
        rw [hend, Option.some.injEq] at hclose
        exact hreopens (later - token.start) (by omega)
          (prefix_drop_of_isMarked hmarked htext hlater.le (by omega) hanother)
      · exact hreopens (place - token.start) (by omega)
          (prefix_drop_of_isMarked hmarked htext hstart hstop hopen)

/-- The close of the first mark stands in no string, and the second mark stands before it. -/
theorem opening_marks_of_tokens_nested :
    tokens (openMark ++ ['"', '"'] ++ marked " if $a ") =
        .ok [⟨0, openMark ++ ['"', '"'], .text⟩, ⟨4, marked " if $a ", .branch "$a".toList⟩] ∧
      ¬ Reopens (marked " if $a ") ∧
      (∀ place, openMark <+: (marked " if $a ").drop place → place = 0) ∧
      ∃ token ∈ [(⟨0, openMark ++ ['"', '"'], .text⟩ : Token),
          ⟨4, marked " if $a ", .branch "$a".toList⟩],
        token.start ≤ 0 ∧ 0 < token.stop ∧ (token.meaning = .text ∨ Reopens token.text) := by
  have hfound : tokens (openMark ++ ['"', '"'] ++ marked " if $a ") =
      .ok [⟨0, openMark ++ ['"', '"'], .text⟩, ⟨4, marked " if $a ", .branch "$a".toList⟩] := by
    decide +kernel
  obtain ⟨honce, houter⟩ := opening_marks_of_tokens _ _ hfound
  have hnot : ¬ Reopens (marked " if $a ") := by
    rintro ⟨inside, later, hsplit, -, hlater⟩
    have hnone : ¬ openMark <:+: (marked " if $a ").drop 2 := by decide +kernel
    apply hnone
    rw [hsplit]
    exact hlater.trans ⟨inside ++ closeMark, [], by simp [openMark]⟩
  have hmember : (⟨4, marked " if $a ", .branch "$a".toList⟩ : Token) ∈
      [(⟨0, openMark ++ ['"', '"'], .text⟩ : Token),
        ⟨4, marked " if $a ", .branch "$a".toList⟩] :=
    List.mem_cons_of_mem _ (List.mem_singleton_self _)
  refine ⟨hfound, hnot, (honce _ hmember rfl).mpr hnot, ?_⟩
  exact houter 0 11 4 (by decide +kernel) (by decide +kernel) (by decide) (by decide)
    (by decide +kernel)

/-- The search behind the second mark takes the quote there for the beginning of a string, passes
over the close and over a directive, and ends with the last close. -/
theorem tokens_reopens :
    ∃ found token, token ∈ found ∧ token.isDirective ∧
      tokens (openMark ++ [' ', '"'] ++
          marked "\" \x7d\x7d \x7b\x7b var: $x \x7d\x7d \" ") = .ok found ∧
      openMark <+: token.text.drop 7 :=
  ⟨[⟨0, openMark ++ [' ', '"'], .text⟩,
      ⟨4, marked "\" \x7d\x7d \x7b\x7b var: $x \x7d\x7d \" ", .unknown⟩],
    ⟨4, marked "\" \x7d\x7d \x7b\x7b var: $x \x7d\x7d \" ", .unknown⟩,
    List.mem_cons_of_mem _ (List.mem_singleton_self _), rfl, by decide +kernel, by decide +kernel⟩

end Stencil.Directive
