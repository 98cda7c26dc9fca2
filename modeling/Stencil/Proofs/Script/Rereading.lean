import Stencil.Proofs.Script.Reading

/-!
# Reading a token elsewhere

A token is read again in front of another text if nothing of that text joins it.  For most tokens
it is enough that the other text begins as the old one did, or apart from the token.  Three kinds of
tokens look further: a slash that begins no regular expression, a regular expression without flags,
and a string without its closing quote.
-/

namespace Stencil.Script

open Stencil.Text

variable {last seen : Option Token} {token : Token} {behind behind' : List Char}

/-- The text behind the token leaves it as it is: it makes no regular expression of a slash, adds
no flags and does not go on with a string. -/
def stands (last : Option Token) (token : Token) (behind : List Char) : Bool :=
  match token with
  | ⟨.punctuation, ['/']⟩ => !allowsRegex last || (regexWidth? false behind).isNone
  | ⟨.literal, c :: body⟩ =>
    if c == '/' then !firstIs isWordChar behind
    else c == '\x60' || quotedWidth c (body ++ behind) == body.length
  | _ => true

/-- The character continues no word and no slash that the text ends with. -/
def Apart (left : List Char) (c : Char) : Prop :=
  (lastIs isWordChar left → isWordChar c = false) ∧
    (left.getLast? = some '/' → opensComment c = false)

/-- The other text begins as the text behind the token, or apart from the token. -/
structure MayFollow (token : Token) (behind behind' : List Char) : Prop where
  empty : behind = [] → behind' = []
  first : ∀ c ∈ behind'.head?, behind.head? = some c ∨ Apart token.text c

/-- Which token comes before makes no difference to a closing brace. -/
def SameSight (seen last : Option Token) (token : Token) : Prop :=
  seen = last ∨ token = ⟨.punctuation, ['}']⟩

theorem MayFollow.firstIs_eq_false
    (hfollow : MayFollow token behind behind') {inClass : Char → Bool}
    (hbehind : firstIs inClass behind = false)
    (hapart : ∀ c, Apart token.text c → inClass c = false) : firstIs inClass behind' = false := by
  rw [firstIs_eq_false_iff] at hbehind ⊢
  intro c hc
  rcases hfollow.first c hc with hsame | hother
  · exact hbehind c hsame
  · exact hapart c hother

theorem lastIs_of_allWord {c : Char} {body : List Char} (hword : AllWord (c :: body)) :
    lastIs isWordChar (c :: body) := by
  rw [lastIs, List.getLast?_eq_some_getLast (List.cons_ne_nil c body)]
  exact hword _ (List.getLast_mem _)

theorem Reads.stands (hreads : Reads seen token behind) (hsight : SameSight seen last token) :
    stands last token behind := by
  cases hreads with
  | word => rfl
  | @mark c _ hmark =>
      have hslash : c ≠ '/' := by
        rintro rfl
        contradiction
      simp [Script.stands, hslash]
  | slash hcomment hregex =>
      obtain rfl : seen = last := hsight.resolve_right (by decide)
      by_cases hallows : allowsRegex seen <;> simp [Script.stands, hallows, hregex]
  | quoted hquote hwidth =>
      rcases hquote with rfl | rfl <;> simp [Script.stands, hwidth]
  | template => rfl
  | regex _ _ _ _ hbehind => simp [Script.stands, hbehind]

/-- What follows a token may change. -/
theorem Reads.of_stands
    (hreads : Reads last token behind) (hsight : SameSight seen last token)
    (hfollow : MayFollow token behind behind') (hstands : Script.stands last token behind') :
    Reads seen token behind' := by
  cases hreads with
  | word hblank hword hbehind =>
      exact .word hblank hword
        (hfollow.firstIs_eq_false hbehind fun c hapart => hapart.1 (lastIs_of_allWord hword))
  | mark hmark => exact .mark hmark
  | slash hcomment hregex =>
      obtain rfl : seen = last := hsight.resolve_right (by decide)
      refine .slash (hfollow.firstIs_eq_false hcomment fun c hapart => hapart.2 rfl) ?_
      intro hallows
      simpa [Script.stands, hallows] using hstands
  | quoted hquote hwidth =>
      refine .quoted hquote ?_
      rcases hquote with rfl | rfl <;> simpa [Script.stands] using hstands
  | template hwidth =>
      refine .template ?_
      cases behind with
      | nil => rwa [hfollow.empty rfl]
      | cons c later => exact closeWidth_append hwidth behind'
  | regex hallows hcomment hends hflags _ =>
      obtain rfl : seen = last := hsight.resolve_right (by simp)
      refine .regex hallows hcomment hends hflags ?_
      simpa [Script.stands] using hstands

/-- In front of the other text no gap begins with the token. -/
theorem Reads.not_beginsGap
    (hreads : Reads last token behind) (hfollow : MayFollow token behind behind')
    {c : Char} {body : List Char} (htext : token.text = c :: body) :
    ¬ BeginsGap c (body ++ behind') := by
  obtain ⟨kind, c', body', rfl, hblank⟩ := hreads.exists_cons
  obtain ⟨rfl, rfl⟩ := List.cons.inj htext
  rintro (hgap | ⟨rfl, hopens⟩)
  · rw [hblank] at hgap
    contradiction
  · cases hreads with
    | word _ hword => exact absurd (hword '/' List.mem_cons_self) (by decide)
    | mark => contradiction
    | slash hcomment =>
        have hnone := hfollow.firstIs_eq_false hcomment fun c hapart => hapart.2 rfl
        rw [List.nil_append, hnone] at hopens
        contradiction
    | quoted hquote => rcases hquote with hquote | hquote <;> contradiction
    | regex _ hcomment =>
        rw [List.cons_append, List.cons_append, firstIs, List.head?_cons] at hopens
        simp only [hcomment] at hopens
        contradiction

/-! ## Tokens without blanks at the end -/

/-- The token without the blanks at its end. -/
def Token.trimmed (token : Token) : Token :=
  ⟨token.kind, trimEnd token.text⟩

theorem trimEnd_append_slash (inner flags : List Char) :
    trimEnd (inner ++ '/' :: flags) = inner ++ '/' :: trimEnd flags := by
  have hlast : NoBlankFirst (inner ++ ['/']).reverse := by
    rw [List.reverse_append]
    exact noBlankFirst_cons rfl
  have htrimmed : trimEnd (inner ++ ['/'] ++ flags) = inner ++ ['/'] ++ trimEnd flags :=
    trimEnd_append_of_noBlankFirst_reverse hlast
  simpa using htrimmed

theorem Reads.trimmed
    (hreads : Reads last token behind) (hsight : SameSight seen last token) :
    Reads seen token.trimmed [] := by
  cases hreads with
  | @word c body _ hblank hword hbehind =>
      rw [Token.trimmed, trimEnd_cons hblank]
      obtain ⟨hc, hbody⟩ := List.forall_mem_cons.mp hword
      exact .word hblank
        (List.forall_mem_cons.mpr ⟨hc, fun d hd => hbody d ((trimEnd_isPrefix body).subset hd)⟩) rfl
  | @mark c _ hmark =>
      have hblank : isBlank c = false := by
        simp only [isMark, Bool.not_eq_true', Bool.or_eq_false_iff] at hmark
        exact hmark.1.1.1.1.1
      rw [Token.trimmed, trimEnd_cons hblank]
      exact .mark hmark
  | slash hcomment hregex => exact .slash rfl fun _ => rfl
  | @quoted quote body _ hquote hwidth =>
      have hblank : isBlank quote = false := by rcases hquote with rfl | rfl <;> rfl
      rw [Token.trimmed, trimEnd_cons hblank]
      refine .quoted hquote ?_
      obtain ⟨gap, -, hbody⟩ := exists_eq_trimEnd_append body
      have hreach : (trimEnd body).length ≤
          quotedWidth quote (trimEnd body ++ (gap ++ behind)) := by
        rw [← List.append_assoc, ← hbody, hwidth]
        exact (trimEnd_isPrefix body).length_le
      rw [List.append_nil]
      exact quotedWidth_eq_length hreach
  | @template body _ hwidth =>
      rw [Token.trimmed, trimEnd_cons rfl]
      refine .template ?_
      obtain ⟨gap, -, hbody⟩ := exists_eq_trimEnd_append body
      have hreach : (trimEnd body).length ≤ templateWidth (trimEnd body ++ (gap ++ behind)) := by
        rw [← List.append_assoc, ← hbody, hwidth]
        exact (trimEnd_isPrefix body).length_le
      rw [List.append_nil]
      exact closeWidth_eq_length hreach
  | @regex d inner flags _ hallows hcomment hends hflags hbehind =>
      obtain rfl : seen = last := hsight.resolve_right (by simp)
      rw [Token.trimmed, trimEnd_cons rfl, trimEnd_append_slash]
      exact .regex hallows hcomment hends
        (fun c hc => hflags c ((trimEnd_isPrefix flags).subset hc)) rfl

theorem Reads.head?_trimmed (hreads : Reads last token behind) :
    token.trimmed.text.head? = token.text.head? := by
  obtain ⟨kind, c, body, rfl, hblank⟩ := hreads.exists_cons
  rw [Token.trimmed, trimEnd_cons hblank]
  rfl

theorem Reads.trimmed_of_punctuation
    (hreads : Reads last token behind) (hkind : token.kind = .punctuation) :
    token.trimmed = token := by
  obtain ⟨kind, c, body, rfl, hblank⟩ := hreads.exists_cons
  have hsingle : body = [] := by
    cases hreads with
    | mark => rfl
    | slash => rfl
    | word => contradiction
    | quoted => contradiction
    | template => contradiction
    | regex => contradiction
  rw [hsingle, Token.trimmed, trimEnd_cons hblank]
  rfl

theorem Reads.isPunct_trimmed (hreads : Reads last token behind) (c : Char) :
    token.trimmed.isPunct c = token.isPunct c := by
  by_cases hkind : token.kind = .punctuation
  · rw [hreads.trimmed_of_punctuation hkind]
  · have hother : ∀ text, (⟨token.kind, text⟩ : Token).isPunct c = false := by
      intro text
      rw [Token.isPunct, beq_eq_false_iff_ne]
      exact fun heq => hkind (congrArg Token.kind heq)
    exact (hother _).trans (hother token.text).symm

theorem Reads.not_allBlank (hreads : Reads last token behind) : ¬ AllBlank token.text := by
  obtain ⟨kind, c, body, rfl, hblank⟩ := hreads.exists_cons
  intro hall
  have hc := hall c List.mem_cons_self
  rw [hblank] at hc
  contradiction

end Stencil.Script
