import Stencil.Proofs.Script.Written

/-!
# Which semicolons are dropped

The writer carries a stack of answers for the open parentheses and a flag for the closed one.  What
it decides with them can be said of the tokens alone: a semicolon before a closing brace goes,
unless the tokens before it end with the header of a statement, which is a word such as `for` and
the parentheses that belong to it.
-/

namespace Stencil.Script

open Stencil.Text

def Token.punct (c : Char) : Token :=
  ⟨.punctuation, [c]⟩

theorem Token.isPunct_self (c : Char) : (punct c).isPunct c :=
  beq_self_eq_true _

theorem Token.isPunct_eq_false_iff {token : Token} {c : Char} :
    token.isPunct c = false ↔ token ≠ punct c :=
  beq_eq_false_iff_ne

/-! ## Headers -/

/-- Every parenthesis among the tokens has its partner there.  Other brackets do not matter. -/
inductive Balanced : List Token → Prop
  | nil : Balanced []
  | other {token : Token} {rest : List Token} (hopener : token ≠ .punct '(')
      (hcloser : token ≠ .punct ')') (hrest : Balanced rest) : Balanced (token :: rest)
  | pair {inner rest : List Token} (hinner : Balanced inner) (hrest : Balanced rest) :
      Balanced (.punct '(' :: (inner ++ .punct ')' :: rest))

theorem Balanced.append {front behind : List Token}
    (hfront : Balanced front) (hbehind : Balanced behind) : Balanced (front ++ behind) := by
  induction hfront with
  | nil => exact hbehind
  | other hopener hcloser _ ih => exact .other hopener hcloser ih
  | pair hinner _ _ ih =>
      rw [List.cons_append, List.append_assoc, List.cons_append]
      exact .pair hinner ih

theorem Balanced.concat {front : List Token} {token : Token} (hfront : Balanced front)
    (hopener : token ≠ .punct '(') (hcloser : token ≠ .punct ')') :
    Balanced (front ++ [token]) :=
  hfront.append (.other hopener hcloser .nil)

/-- The parenthesis that opens behind these tokens opens a header. -/
def AwaitsHeader (front : List Token) : Prop :=
  ∃ word ∈ headerWords, front.getLast? = some ⟨.word, word⟩

/-- The tokens end with a closing parenthesis whose partner opens a header. -/
def EndsHeader (front : List Token) : Prop :=
  ∃ before inner, AwaitsHeader before ∧ Balanced inner ∧
    front = before ++ .punct '(' :: (inner ++ [.punct ')'])

/-! ## The stack of the open parentheses -/

/-- The brackets after more tokens; `last` is the token before them. -/
def Brackets.afterAll (brackets : Brackets) (last : Option Token) : List Token → Brackets
  | [] => brackets
  | token :: rest => (brackets.after last token).afterAll (some token) rest

/-- The brackets after the first tokens of a script. -/
def bracketsOf (front : List Token) : Brackets :=
  Brackets.afterAll ⟨[], false⟩ none front

variable {token : Token} {front : List Token}

theorem Brackets.afterAll_concat (brackets : Brackets) (last : Option Token) (front : List Token)
    (token : Token) :
    brackets.afterAll last (front ++ [token]) =
      (brackets.afterAll last front).after (front.getLast?.or last) token := by
  induction front generalizing brackets last with
  | nil => rfl
  | cons first rest ih =>
      rw [List.cons_append, afterAll, afterAll, ih, List.getLast?_cons, Option.some_or]
      cases rest.getLast? <;> rfl

theorem bracketsOf_concat (front : List Token) (token : Token) :
    bracketsOf (front ++ [token]) = (bracketsOf front).after front.getLast? token := by
  rw [bracketsOf, Brackets.afterAll_concat, Option.or_none]
  rfl

theorem Brackets.after_other
    (hopener : token ≠ .punct '(') (hcloser : token ≠ .punct ')') (brackets : Brackets)
    (last : Option Token) : brackets.after last token = brackets := by
  simp [after, Token.isPunct_eq_false_iff.mpr hopener, Token.isPunct_eq_false_iff.mpr hcloser]

theorem Brackets.after_closer (brackets : Brackets) (last : Option Token) :
    brackets.after last (.punct ')') =
      ⟨brackets.opened.drop 1, brackets.opened.head?.getD false⟩ := rfl

/-- An opening parenthesis is put on the stack with the answer whether it opens a header. -/
theorem exists_opened_after_opener (brackets : Brackets) (front : List Token) :
    ∃ header, (brackets.after front.getLast? (.punct '(')).opened = header :: brackets.opened ∧
      (header ↔ AwaitsHeader front) := by
  refine ⟨_, rfl, ?_⟩
  rw [AwaitsHeader]
  split
  next word hlast => simp [hlast]
  next hother =>
    refine iff_of_false Bool.false_ne_true ?_
    rintro ⟨word, -, hlast⟩
    exact hother word hlast

/-- Balanced tokens leave the stack as it was. -/
theorem Balanced.opened_bracketsOf {inner : List Token} (hinner : Balanced inner)
    (front : List Token) :
    (bracketsOf (front ++ inner)).opened = (bracketsOf front).opened := by
  induction hinner generalizing front with
  | nil => rw [List.append_nil]
  | @other token rest hopener hcloser _ ih =>
      rw [List.append_cons, ih, bracketsOf_concat, Brackets.after_other hopener hcloser]
  | @pair inner rest _ _ ihinner ihrest =>
      obtain ⟨header, hopened, -⟩ := exists_opened_after_opener (bracketsOf front) front
      rw [List.append_cons, ← List.append_assoc, List.append_cons, ihrest, bracketsOf_concat,
        Brackets.after_closer, ihinner, bracketsOf_concat, hopened]
      rfl

/-- The top of the stack stands for an open parenthesis with balanced tokens behind it, and what
lies under it was the stack before that parenthesis. -/
theorem exists_opener_of_opened
    {header : Bool} {under : List Bool} (hopened : (bracketsOf front).opened = header :: under) :
    ∃ before inner, front = before ++ .punct '(' :: inner ∧ Balanced inner ∧
      (header ↔ AwaitsHeader before) ∧ (bracketsOf before).opened = under := by
  induction hlength : front.length using Nat.strong_induction_on generalizing front header under with
  | _ length ih =>
      subst hlength
      rcases List.eq_nil_or_concat front with rfl | ⟨front, token, rfl⟩
      · contradiction
      rw [List.concat_eq_append] at *
      have hshorter : front.length < (front ++ [token]).length := by simp
      rw [bracketsOf_concat] at hopened
      by_cases hopener : token = .punct '('
      · subst hopener
        obtain ⟨header', hopened', hheader⟩ :=
          exists_opened_after_opener (bracketsOf front) front
        obtain ⟨rfl, rfl⟩ := List.cons.inj (hopened'.symm.trans hopened)
        exact ⟨front, [], rfl, .nil, hheader, rfl⟩
      by_cases hcloser : token = .punct ')'
      · subst hcloser
        rw [Brackets.after_closer] at hopened
        obtain ⟨top, hstack⟩ : ∃ top, (bracketsOf front).opened = top :: header :: under := by
          cases hstack : (bracketsOf front).opened with
          | nil => rw [hstack] at hopened; contradiction
          | cons top below => rw [hstack] at hopened; exact ⟨top, congrArg _ hopened⟩
        obtain ⟨before, inner, rfl, hinner, -, hbefore⟩ := ih _ hshorter hstack rfl
        have hearlier :
            before.length < (before ++ Token.punct '(' :: inner ++ [Token.punct ')']).length := by
          simp
        obtain ⟨before', inner', rfl, hinner', hheader, hunder⟩ := ih _ hearlier hbefore rfl
        refine ⟨before', inner' ++ .punct '(' :: (inner ++ [.punct ')']), by simp, ?_, hheader,
          hunder⟩
        exact hinner'.append (.pair hinner .nil)
      · rw [Brackets.after_other hopener hcloser] at hopened
        obtain ⟨before, inner, rfl, hinner, hheader, hunder⟩ := ih _ hshorter hopened rfl
        exact ⟨before, inner ++ [token], by simp, hinner.concat hopener hcloser, hheader, hunder⟩

/-- The flag of the writer says whether a closing parenthesis ends a header. -/
theorem header_bracketsOf_concat_iff :
    (bracketsOf (front ++ [.punct ')'])).header ↔ EndsHeader (front ++ [.punct ')']) := by
  rw [bracketsOf_concat, Brackets.after_closer]
  constructor
  · intro hheader
    obtain ⟨under, hopened⟩ : ∃ under, (bracketsOf front).opened = true :: under := by
      cases hopened : (bracketsOf front).opened with
      | nil => rw [hopened] at hheader; contradiction
      | cons top under => rw [hopened] at hheader; exact ⟨under, congrArg (· :: under) hheader⟩
    obtain ⟨before, inner, rfl, hinner, hawaits, -⟩ := exists_opener_of_opened hopened
    exact ⟨before, inner, hawaits.mp rfl, hinner, by simp⟩
  · rintro ⟨before, inner, hawaits, hinner, hsplit⟩
    obtain rfl : front = (before ++ [.punct '(']) ++ inner := by
      rw [← List.cons_append, ← List.append_assoc] at hsplit
      rw [List.append_cancel_right hsplit, List.append_assoc, List.singleton_append]
    obtain ⟨header, hopened, hheader⟩ := exists_opened_after_opener (bracketsOf before) before
    rw [hinner.opened_bracketsOf, bracketsOf_concat, hopened]
    exact hheader.mpr hawaits

/-! ## What is written -/

structure IsDropped (front : List Token) (token : Token) (rest : List (Gap × Token)) : Prop where
  semicolon : token = .punct ';'
  brace : ∃ gap later, rest = (gap, .punct '}') :: later
  body : ¬ EndsHeader front

/-- The text writes the tokens behind `front` in their order, without the dropped semicolons.  A
separator stands only in a gap between two tokens, and none before a closing brace, from which a
semicolon may be missing. -/
inductive Writes : List Token → List (Gap × Token) → List Char → Prop
  | nil (front : List Token) : Writes front [] []
  | dropped {front : List Token} {gap : Gap} {token : Token} {rest : List (Gap × Token)}
      {text : List Char} (hdropped : IsDropped front token rest)
      (hrest : Writes (front ++ [token]) rest text) : Writes front ((gap, token) :: rest) text
  | kept {front : List Token} {gap : Gap} {token : Token} {rest : List (Gap × Token)}
      {separator text : List Char} (hkept : ¬ IsDropped front token rest)
      (hseparator : separator ∈ [[], [' '], ['\n']])
      (hgap : separator ≠ [] → gap ≠ .closed ∧ front ≠ [] ∧ token ≠ .punct '}')
      (hrest : Writes (front ++ [token]) rest text) :
      Writes front ((gap, token) :: rest) (separator ++ (token.text ++ text))

variable {gap : Gap} {rest tokens : List (Gap × Token)}

theorem EndsHeader.getLast?_eq (hends : EndsHeader front) :
    front.getLast? = some (.punct ')') := by
  obtain ⟨before, inner, -, -, rfl⟩ := hends
  rw [← List.cons_append, ← List.append_assoc, List.getLast?_concat]

theorem header_and_closer_iff :
    ((bracketsOf front).header && front.getLast?.any (·.isPunct ')')) ↔ EndsHeader front := by
  by_cases hlast : front.getLast? = some (.punct ')')
  · obtain ⟨before, rfl⟩ := List.getLast?_eq_some_iff.mp hlast
    rw [hlast, Option.any_some, Token.isPunct_self, Bool.and_true]
    exact header_bracketsOf_concat_iff
  · refine iff_of_false (fun hboth => hlast ?_) fun hends => hlast hends.getLast?_eq
    have hcloser := (Bool.and_eq_true_iff.mp hboth).2
    cases hfound : front.getLast? with
    | none => rw [hfound] at hcloser; contradiction
    | some last => rw [hfound] at hcloser; exact congrArg some (eq_of_isPunct hcloser)

/-- The decision of the writer in terms of the tokens before it and behind it. -/
theorem isIdle_bracketsOf_iff :
    isIdle (bracketsOf front) front.getLast? token rest ↔ IsDropped front token rest := by
  constructor
  · intro hidle
    obtain ⟨hsemicolon, hbrace⟩ := exists_of_isIdle hidle
    refine ⟨hsemicolon, hbrace, fun hends => ?_⟩
    simp [isIdle, header_and_closer_iff.mpr hends] at hidle
  · rintro ⟨rfl, ⟨gap, later, rfl⟩, hbody⟩
    rw [← header_and_closer_iff, Bool.not_eq_true] at hbody
    simp only [isIdle, hbody, Token.isPunct_self, Bool.not_false, Bool.and_self]

/-- A separator stands only in a gap, behind a token and not before a closing brace. -/
theorem gap_of_between_ne_nil (hbetween : between front.getLast? gap token ≠ []) :
    gap ≠ .closed ∧ front ≠ [] ∧ token ≠ .punct '}' := by
  refine ⟨?_, ?_, ?_⟩
  · rintro rfl
    apply hbetween
    cases front.getLast? <;> rfl
  · rintro rfl
    exact hbetween rfl
  · rintro rfl
    exact hbetween (between_closer (.inr rfl) _ _ _)

theorem writes_write (front : List Token) (tokens : List (Gap × Token)) :
    Writes front tokens (write (bracketsOf front) front.getLast? tokens) := by
  induction tokens generalizing front with
  | nil => exact .nil front
  | cons entry rest ih =>
      obtain ⟨gap, token⟩ := entry
      have hrest := ih (front ++ [token])
      rw [bracketsOf_concat, List.getLast?_concat] at hrest
      by_cases hidle : isIdle (bracketsOf front) front.getLast? token rest
      · rw [write_cons_of_idle hidle]
        exact .dropped (isIdle_bracketsOf_iff.mp hidle) hrest
      · have hkept := isIdle_bracketsOf_iff.not.mp hidle
        rw [write_cons_of_not_idle (Bool.not_eq_true _ ▸ hidle)]
        exact .kept hkept (between_mem _ gap token) gap_of_between_ne_nil hrest

/-- A minified script is the text of its tokens in their order, up to blanks at its ends.  Only a
semicolon before a closing brace is dropped, and only if it does not follow a header. -/
theorem exists_writes_of_minify (script : List Char) :
    ∃ text, Writes [] (gapped .closed (pieces script)) text ∧ minify script = trim text :=
  ⟨_, writes_write [] _, rfl⟩

/-- The parentheses of a call are no header, and neither is one that was never opened. -/
example : minify "\x7b if (a(b)) ; \x7d \x7b a(b) ; \x7d \x7b ) ; \x7d".toList =
    "\x7bif(a(b));\x7d\x7ba(b)\x7d\x7b)\x7d".toList := by
  decide +kernel

end Stencil.Script
