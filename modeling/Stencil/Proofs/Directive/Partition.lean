import Stencil.Proofs.Directive.Meaning
import Stencil.Proofs.Directive.Scan
import Stencil.Proofs.Except
import Mathlib.Data.List.Chain
import Mathlib.Logic.Relation

/-!
# Tokens partition their text

Whatever braces, quotes and backslashes stand in a text, its tokens are consecutive non-empty parts
of it.  Plain text and directives take turns in so far as no two plain tokens are neighbours, and a
directive keeps its two marks.

The scan is described twice: `ScanStep` is one step of it, and `Scanned` relates a text to the
tokens of a scan that came to its end.
-/

namespace Stencil.Directive

open Stencil.Text

/-! ## The steps of a scan -/

theorem tokensFrom_of_none
    {start : Nat} {text : List Char} (hmark : indexOf? openMark text = none) :
    tokensFrom start text = .ok (plainToken start text) := by
  unfold tokensFrom
  split
  next => rfl
  next mark hsome => simp [hmark] at hsome

theorem tokensFrom_of_unterminated
    {start mark : Nat} {text : List Char} (hmark : indexOf? openMark text = some mark)
    (hspan : innermost? (text.drop mark) = none) :
    tokensFrom start text =
      .error (.malformedDirective ((text.drop mark).take shownDirective) .unterminated
        (some (start + mark : Nat))) := by
  rw [tokensFrom]
  split
  next hnone => simp [hmark] at hnone
  next found hsome =>
    rw [hmark, Option.some.injEq] at hsome
    subst found
    simp only [hspan]

theorem tokensFrom_of_span
    {start mark : Nat} {text : List Char} {span : Span} (hmark : indexOf? openMark text = some mark)
    (hspan : innermost? (text.drop mark) = some span) :
    tokensFrom start text =
      (tokensFrom (start + (mark + span.offset) + span.width)
          ((text.drop (mark + span.offset)).drop span.width)).map fun later =>
        plainToken start (text.take (mark + span.offset)) ++
          classify ((text.drop (mark + span.offset)).take span.width)
            (start + (mark + span.offset)) :: later := by
  rw [tokensFrom]
  split
  next hnone => simp [hmark] at hnone
  next found hsome =>
    rw [hmark, Option.some.injEq] at hsome
    subst found
    simp only [hspan]
    cases tokensFrom (start + (mark + span.offset) + span.width)
      ((text.drop (mark + span.offset)).drop span.width) <;> rfl

/-- One step of a scan: from the text that is left at a position to the text that is left behind
the next directive. -/
inductive ScanStep : Nat × List Char → Nat × List Char → Prop where
  | behind {start mark : Nat} {text : List Char} {span : Span}
      (hmark : indexOf? openMark text = some mark)
      (hspan : innermost? (text.drop mark) = some span) :
      ScanStep (start, text)
        (start + (mark + span.offset) + span.width,
          (text.drop (mark + span.offset)).drop span.width)

theorem scan_cases (start : Nat) (text : List Char) :
    indexOf? openMark text = none ∨
      (∃ mark, indexOf? openMark text = some mark ∧ innermost? (text.drop mark) = none) ∨
      ∃ next rest, ScanStep (start, text) (next, rest) := by
  cases hmark : indexOf? openMark text with
  | none => exact .inl rfl
  | some mark =>
      cases hspan : innermost? (text.drop mark) with
      | none => exact .inr (.inl ⟨mark, rfl, hspan⟩)
      | some span => exact .inr (.inr ⟨_, _, .behind hmark hspan⟩)

/-- A step passes over plain text and one directive, and the scan goes on with what is left. -/
theorem ScanStep.exists_eq_append
    {start next : Nat} {text rest : List Char} (hstep : ScanStep (start, text) (next, rest)) :
    ∃ before directive,
      text = before ++ directive ++ rest ∧ IsMarked directive ∧
        next = start + before.length + directive.length ∧
        tokensFrom start text =
          (tokensFrom next rest).map fun later =>
            plainToken start before ++ classify directive (start + before.length) :: later := by
  cases hstep with
  | @behind _ mark _ span hmark hspan =>
    obtain ⟨before, inside, after, htext, hoffset, hinside⟩ :=
      exists_eq_append_of_innermost? (prefix_drop_of_indexOf? hmark) hspan
    have hfits := openMark_fits (prefix_drop_of_indexOf? hmark)
    have hpassed : (text.take mark ++ before).length = mark + span.offset := by
      rw [List.length_append, List.length_take_of_le (Nat.le_of_add_right_le hfits), hoffset]
    have hdirective : (openMark ++ inside ++ closeMark).length = span.width := by
      simp only [List.length_append, hinside, Span.width]
      omega
    have hwhole : text = (text.take mark ++ before) ++
        ((openMark ++ inside ++ closeMark) ++ after) := by
      conv_lhs => rw [← List.take_append_drop mark text, htext]
      simp only [List.append_assoc]
    have hdrop : text.drop (mark + span.offset) = (openMark ++ inside ++ closeMark) ++ after := by
      conv_lhs => rw [hwhole, ← hpassed]
      exact List.drop_left
    have htake : text.take (mark + span.offset) = text.take mark ++ before := by
      conv_lhs => rw [hwhole, ← hpassed]
      exact List.take_left
    have hrest : (text.drop (mark + span.offset)).drop span.width = after := by
      rw [hdrop, ← hdirective]
      exact List.drop_left
    have hraw : (text.drop (mark + span.offset)).take span.width =
        openMark ++ inside ++ closeMark := by
      rw [hdrop, ← hdirective]
      exact List.take_left
    refine ⟨text.take mark ++ before, openMark ++ inside ++ closeMark, ?_, ⟨inside, rfl⟩, ?_, ?_⟩
    · rw [hrest, List.append_assoc]
      exact hwhole
    · rw [hpassed, hdirective]
    · rw [tokensFrom_of_span hmark hspan, hraw, htake, hpassed]

theorem ScanStep.lt {start next : Nat} {text rest : List Char}
    (hstep : ScanStep (start, text) (next, rest)) : start < next := by
  obtain ⟨before, directive, _, hmarked, hnext, _⟩ := hstep.exists_eq_append
  have := hmarked.length
  omega

theorem ScanStep.length_lt {start next : Nat} {text rest : List Char}
    (hstep : ScanStep (start, text) (next, rest)) : rest.length < text.length := by
  obtain ⟨before, directive, rfl, hmarked, -, -⟩ := hstep.exists_eq_append
  have := hmarked.length
  simp only [List.length_append]
  omega

/-- A scan comes to its end, to a directive without an end, or to a step that leaves less. -/
theorem scan_induction {motive : Nat → List Char → Prop}
    (plain : ∀ start text, indexOf? openMark text = none → motive start text)
    (unterminated : ∀ start text mark, indexOf? openMark text = some mark →
      innermost? (text.drop mark) = none → motive start text)
    (step : ∀ start text next rest, ScanStep (start, text) (next, rest) → motive next rest →
      motive start text)
    (start : Nat) (text : List Char) : motive start text := by
  induction hlength : text.length using Nat.strong_induction_on generalizing start text with
  | _ length ih =>
      subst hlength
      rcases scan_cases start text with hmark | ⟨mark, hmark, hspan⟩ | ⟨next, rest, hstep⟩
      · exact plain start text hmark
      · exact unterminated start text mark hmark hspan
      · exact step start text next rest hstep (ih rest.length hstep.length_lt next rest rfl)

/-- A scan is always at a position of the text, with the rest of the text before it. -/
theorem eq_drop_of_scanSteps {text : List Char} {state : Nat × List Char}
    (hsteps : Relation.ReflTransGen ScanStep (0, text) state) :
    state.2 = text.drop state.1 ∧ state.1 ≤ text.length := by
  induction hsteps with
  | refl => simp
  | @tail state later _ hstep ih =>
      obtain ⟨position, rest⟩ := state
      obtain ⟨next, after⟩ := later
      obtain ⟨before, directive, hrest, _, hnext, _⟩ := hstep.exists_eq_append
      obtain ⟨hdrop, hbound⟩ := ih
      simp only at hdrop hbound ⊢
      have hlength : text.length - position = before.length + directive.length + after.length := by
        rw [← List.length_drop, ← hdrop, hrest, List.length_append, List.length_append]
      constructor
      · have hpassed : next = position + (before ++ directive).length := by
          rw [List.length_append, hnext, Nat.add_assoc]
        rw [hpassed, ← List.drop_drop, ← hdrop, hrest, List.drop_left]
      · omega

/-! ## Scans that came to their end -/

/-- The tokens of a text that begins at the given position. -/
inductive Scanned : Nat → List Char → List Token → Prop where
  | plain (start : Nat) (text : List Char) : Scanned start text (plainToken start text)
  | directive {start : Nat} {before directive rest : List Char} {later : List Token}
      (hmarked : IsMarked directive)
      (hlater : Scanned (start + before.length + directive.length) rest later) :
      Scanned start (before ++ directive ++ rest)
        (plainToken start before ++ classify directive (start + before.length) :: later)

theorem scanned_of_tokensFrom {start : Nat} {text : List Char} {found : List Token}
    (htokens : tokensFrom start text = .ok found) : Scanned start text found := by
  induction start, text using scan_induction generalizing found with
  | plain start text hnone =>
      rw [tokensFrom_of_none hnone, Except.ok.injEq] at htokens
      subst found
      exact .plain start text
  | unterminated start text mark hmark hspan =>
      rw [tokensFrom_of_unterminated hmark hspan] at htokens
      contradiction
  | step start text next rest hstep ih =>
      obtain ⟨before, directive, rfl, hmarked, rfl, hrec⟩ := hstep.exists_eq_append
      rw [hrec, map_eq_ok_iff] at htokens
      obtain ⟨later, hlater, rfl⟩ := htokens
      exact .directive hmarked (ih hlater)

/-! ## The kind of a directive token -/

@[simp] theorem isDirective_classify (raw : List Char) (start : Nat) :
    (classify raw start).isDirective = true := by
  simp [Token.isDirective, classify, meaningOf_ne_text]

/-! ## Places -/

/-- The tokens stand one behind the other, from the given position on. -/
def Positioned : Nat → List Token → Prop
  | _, [] => True
  | start, token :: rest => token.start = start ∧ Positioned token.stop rest

theorem Positioned.plainToken_append
    {start : Nat} {text : List Char} {found : List Token}
    (hfound : Positioned (start + text.length) found) :
    Positioned start (plainToken start text ++ found) := by
  unfold plainToken
  split
  next hempty =>
    rw [List.isEmpty_iff] at hempty
    subst text
    exact hfound
  next => exact ⟨rfl, hfound⟩

theorem Positioned.isChain {start : Nat} {found : List Token} (hfound : Positioned start found) :
    found.IsChain fun left right => right.start = left.stop := by
  induction found generalizing start with
  | nil => exact .nil
  | cons token rest ih =>
      rw [List.isChain_cons]
      refine ⟨?_, ih hfound.2⟩
      intro next hnext
      cases rest with
      | nil => simp at hnext
      | cons first later =>
          rw [List.head?_cons, Option.mem_some_iff] at hnext
          subst next
          exact hfound.2.1

theorem Positioned.text_eq_extract
    {before : List Char} {found : List Token} (hfound : Positioned before.length found) :
    ∀ token ∈ found,
      token.text = (before ++ found.flatMap Token.text).extract token.start token.stop := by
  induction found generalizing before with
  | nil => simp
  | cons first rest ih =>
      intro token htoken
      obtain ⟨hstart, hrest⟩ := hfound
      rw [List.mem_cons] at htoken
      rcases htoken with rfl | htoken
      · rw [List.extract_eq_take_drop, Token.stop, hstart, List.drop_left,
          Nat.add_sub_cancel_left, List.flatMap_cons, List.take_left]
      · have hpassed : Positioned (before ++ first.text).length rest := by
          rw [List.length_append, ← hstart]
          exact hrest
        have htext := ih hpassed token htoken
        rw [List.append_assoc] at htext
        exact htext

theorem Scanned.positioned {start : Nat} {text : List Char} {found : List Token}
    (hscanned : Scanned start text found) : Positioned start found := by
  induction hscanned with
  | plain start text =>
      rw [← List.append_nil (plainToken start text)]
      exact Positioned.plainToken_append trivial
  | @directive start before directive rest later hmarked _ ih =>
      exact Positioned.plainToken_append ⟨rfl, ih⟩

/-! ## Texts -/

@[simp] theorem flatMap_text_plainToken (start : Nat) (text : List Char) :
    (plainToken start text).flatMap Token.text = text := by
  unfold plainToken
  split
  next hempty =>
    rw [List.isEmpty_iff] at hempty
    subst text
    rfl
  next => simp

theorem Scanned.flatMap_text {start : Nat} {text : List Char} {found : List Token}
    (hscanned : Scanned start text found) : found.flatMap Token.text = text := by
  induction hscanned with
  | plain start text => exact flatMap_text_plainToken start text
  | directive hmarked _ ih =>
      rw [List.flatMap_append, flatMap_text_plainToken, List.flatMap_cons, ih,
        List.append_assoc]
      rfl

theorem mem_plainToken {start : Nat} {text : List Char} {token : Token}
    (htoken : token ∈ plainToken start text) : token = ⟨start, text, .text⟩ ∧ text ≠ [] := by
  unfold plainToken at htoken
  split at htoken
  next => simp at htoken
  next hempty =>
    rw [List.isEmpty_iff] at hempty
    exact ⟨List.mem_singleton.mp htoken, hempty⟩

/-- A token of a scanned text is a piece of plain text, or it was read from a marked directive. -/
theorem Scanned.plain_or_marked {start : Nat} {text : List Char} {found : List Token}
    (hscanned : Scanned start text found) {token : Token} (htoken : token ∈ found) :
    (token.meaning = .text ∧ token.text ≠ []) ∨
      ∃ directive place, IsMarked directive ∧ token = classify directive place := by
  induction hscanned with
  | plain start text =>
      obtain ⟨rfl, hempty⟩ := mem_plainToken htoken
      exact .inl ⟨rfl, hempty⟩
  | @directive start before directive rest later hmarked _ ih =>
      rw [List.mem_append, List.mem_cons] at htoken
      rcases htoken with hplain | rfl | hlater
      · obtain ⟨rfl, hempty⟩ := mem_plainToken hplain
        exact .inl ⟨rfl, hempty⟩
      · exact .inr ⟨directive, start + before.length, hmarked, rfl⟩
      · exact ih hlater

theorem Scanned.text_ne_nil {start : Nat} {text : List Char} {found : List Token}
    (hscanned : Scanned start text found) : ∀ token ∈ found, token.text ≠ [] := by
  intro token htoken
  rcases hscanned.plain_or_marked htoken with ⟨-, hempty⟩ | ⟨directive, place, hmarked, rfl⟩
  · exact hempty
  · have hlength := hmarked.length
    exact List.ne_nil_of_length_pos (by simp only [classify]; omega)

theorem Scanned.isMarked {start : Nat} {text : List Char} {found : List Token}
    (hscanned : Scanned start text found) :
    ∀ token ∈ found, token.isDirective → IsMarked token.text := by
  intro token htoken hdirective
  rcases hscanned.plain_or_marked htoken with ⟨hplain, -⟩ | ⟨directive, place, hmarked, rfl⟩
  · simp [Token.isDirective, hplain] at hdirective
  · exact hmarked

theorem isChain_plainToken_append
    {start : Nat} {text : List Char} {token : Token} {later : List Token}
    (hdirective : token.isDirective)
    (hlater : (token :: later).IsChain fun left right => left.isDirective ∨ right.isDirective) :
    (plainToken start text ++ token :: later).IsChain
      fun left right => left.isDirective ∨ right.isDirective := by
  unfold plainToken
  split
  next => exact hlater
  next => exact .cons_cons (.inr hdirective) hlater

theorem Scanned.isChain {start : Nat} {text : List Char} {found : List Token}
    (hscanned : Scanned start text found) :
    found.IsChain fun left right => left.isDirective ∨ right.isDirective := by
  induction hscanned with
  | plain start text =>
      unfold plainToken
      split
      next => exact .nil
      next => exact .singleton _
  | directive hmarked _ ih =>
      apply isChain_plainToken_append (isDirective_classify _ _)
      rw [List.isChain_cons]
      exact ⟨fun _ _ => .inl (isDirective_classify _ _), ih⟩

/-! ## The partition -/

/-- The tokens are the consecutive parts of a text. -/
structure TokenPartition (text : List Char) (found : List Token) : Prop where
  first : ∀ token ∈ found.head?, token.start = 0
  contiguous : found.IsChain fun left right => right.start = left.stop
  nonempty : ∀ token ∈ found, token.text ≠ []
  slice : ∀ token ∈ found, token.text = text.extract token.start token.stop
  joined : found.flatMap Token.text = text
  alternating : found.IsChain fun left right => left.isDirective ∨ right.isDirective
  marked :
    ∀ token ∈ found, token.isDirective →
      openMark <+: token.text ∧ closeMark <:+ token.text ∧ 4 ≤ token.text.length

theorem Scanned.partition {text : List Char} {found : List Token}
    (hscanned : Scanned 0 text found) : TokenPartition text found where
  first := by
    intro token htoken
    obtain ⟨later, rfl⟩ := List.head?_eq_some_iff.mp htoken
    exact hscanned.positioned.1
  contiguous := hscanned.positioned.isChain
  nonempty := hscanned.text_ne_nil
  slice := by
    intro token htoken
    have hplace : Positioned ([] : List Char).length found := hscanned.positioned
    have hslice := hplace.text_eq_extract token htoken
    rw [List.nil_append, hscanned.flatMap_text] at hslice
    exact hslice
  joined := hscanned.flatMap_text
  alternating := hscanned.isChain
  marked := by
    intro token htoken hdirective
    have hmarked := hscanned.isMarked token htoken hdirective
    exact ⟨hmarked.begins, hmarked.ends, hmarked.length⟩

/-- The tokens of a text partition it.  On every text the scan goes forward with each step and stays
in the text, and the search for the close of an inner opening mark succeeds. -/
theorem tokens_partition (text : List Char) :
    (∀ found, tokens text = .ok found → TokenPartition text found) ∧
      (∀ position rest,
        Relation.ReflTransGen ScanStep (0, text) (position, rest) →
          rest = text.drop position ∧ position ≤ text.length ∧
            ∀ next later, ScanStep (position, rest) (next, later) →
              position < next ∧ next ≤ text.length ∧ later = text.drop next) ∧
      ∀ (rest : List Char) (close inner : Nat),
        closePosition? (rest.drop 2) = some close →
          lastIndexOf? openMark ((rest.drop 1).take (close + 1)) = some inner →
            (closePosition? (rest.drop (inner + 3))).isSome := by
  refine ⟨?_, ?_, fun rest close inner => isSome_closePosition?_inner⟩
  · intro found hfound
    exact (scanned_of_tokensFrom hfound).partition
  · intro position rest hsteps
    obtain ⟨hrest, hbound⟩ := eq_drop_of_scanSteps hsteps
    refine ⟨hrest, hbound, ?_⟩
    intro next later hstep
    obtain ⟨hlater, hnext⟩ := eq_drop_of_scanSteps (hsteps.tail hstep)
    exact ⟨hstep.lt, hnext, hlater⟩

/-- Of three opening braces the last two open the directive; of three closing ones the first two
close it, and the quote behind them opens nothing. -/
theorem tokens_partition_overlapping :
    TokenPartition ('{' :: marked " var: $a " ++ ['}', '"', 'b'])
        [⟨0, ['{'], .text⟩, ⟨1, marked " var: $a ", .variable "$a".toList⟩,
          ⟨14, ['}', '"', 'b'], .text⟩] ∧
      (0 < 14 ∧ 14 ≤ ('{' :: marked " var: $a " ++ ['}', '"', 'b']).length ∧
        ['}', '"', 'b'] = ('{' :: marked " var: $a " ++ ['}', '"', 'b']).drop 14) ∧
      (closePosition? (('{' :: marked " var: $a " ++ ['}', '"', 'b']).drop 3)).isSome := by
  have hstep : ScanStep (0, '{' :: marked " var: $a " ++ ['}', '"', 'b']) (14, ['}', '"', 'b']) :=
    .behind
      (by decide +kernel :
        indexOf? openMark ('{' :: marked " var: $a " ++ ['}', '"', 'b']) = some 0)
      (by rfl : innermost? (('{' :: marked " var: $a " ++ ['}', '"', 'b']).drop 0) = some ⟨1, 9⟩)
  refine ⟨?_, ?_, ?_⟩
  · exact (tokens_partition _).1 _ (by decide +kernel)
  · exact ((tokens_partition _).2.1 0 _ .refl).2.2 14 _ hstep
  · exact (tokens_partition []).2.2 ('{' :: marked " var: $a " ++ ['}', '"', 'b']) 10 0
      (by decide +kernel) (by decide +kernel)

end Stencil.Directive
