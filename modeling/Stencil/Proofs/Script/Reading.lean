import Stencil.Proofs.Script.Scan
import Stencil.Proofs.Text.Blank

/-!
# How a script is read

What begins at a place of a script is a token or part of a gap.  There is one rule for each kind of
token; a rule says what the token looks like and what may stand behind it.
-/

namespace Stencil.Script

open Stencil.Text

def opensComment (c : Char) : Bool :=
  c == '/' || c == '*'

/-- A character that is punctuation wherever it stands. -/
def isMark (c : Char) : Bool :=
  !(isBlank c || isWordChar c || c == '/' || c == '\x60' || c == '"' || c == '\'')

/-- Reading a text that begins with the token, and goes on with `behind`, gives the token; `last`
is the token before. -/
inductive Reads (last : Option Token) : Token → List Char → Prop
  | word {c : Char} {body behind : List Char} (hfirst : isBlank c = false)
      (hword : AllWord (c :: body)) (hbehind : firstIs isWordChar behind = false) :
      Reads last ⟨.word, c :: body⟩ behind
  | mark {c : Char} {behind : List Char} (hmark : isMark c) :
      Reads last ⟨.punctuation, [c]⟩ behind
  | slash {behind : List Char} (hcomment : firstIs opensComment behind = false)
      (hregex : allowsRegex last → regexWidth? false behind = none) :
      Reads last ⟨.punctuation, ['/']⟩ behind
  | quoted {quote : Char} {body behind : List Char} (hquote : quote = '"' ∨ quote = '\'')
      (hwidth : quotedWidth quote (body ++ behind) = body.length) :
      Reads last ⟨.literal, quote :: body⟩ behind
  | template {body behind : List Char} (hwidth : templateWidth (body ++ behind) = body.length) :
      Reads last ⟨.literal, '\x60' :: body⟩ behind
  | regex {c : Char} {inner flags behind : List Char} (hallows : allowsRegex last)
      (hcomment : opensComment c = false) (hends : RegexEnds false (c :: inner))
      (hflags : AllWord flags) (hbehind : firstIs isWordChar behind = false) :
      Reads last ⟨.literal, '/' :: (c :: inner ++ '/' :: flags)⟩ behind

variable {last : Option Token} {token : Token} {behind : List Char}

theorem piecesFrom_nil (last : Option Token) : piecesFrom last [] = [] := by
  rw [piecesFrom]

theorem piecesFrom_cons (last : Option Token) (c : Char) (rest : List Char) :
    piecesFrom last (c :: rest) =
      let piece := (shapeAt last c rest).1 (c :: rest.take (shapeAt last c rest).2)
      piece :: piecesFrom (piece.asToken?.or last) (rest.drop (shapeAt last c rest).2) := by
  rw [piecesFrom]

theorem piecesFrom_append
    {c : Char} {body : List Char} {make : List Char → Piece}
    (hshape : shapeAt last c (body ++ behind) = (make, body.length)) :
    piecesFrom last (c :: body ++ behind) =
      make (c :: body) :: piecesFrom ((make (c :: body)).asToken?.or last) behind := by
  rw [List.cons_append, piecesFrom_cons, hshape]
  simp only [List.take_left, List.drop_left]

theorem wordChar_plain {c : Char} (hword : isWordChar c) :
    c ≠ '/' ∧ c ≠ '\x60' ∧ c ≠ '"' ∧ c ≠ '\'' := by
  refine ⟨?_, ?_, ?_, ?_⟩ <;>
  · rintro rfl
    contradiction

theorem not_comment_of_firstIs {rest : List Char} (hcomment : firstIs opensComment rest = false) :
    rest.head? ≠ some '/' ∧ rest.head? ≠ some '*' := by
  cases rest with
  | nil => exact ⟨nofun, nofun⟩
  | cons c rest => simpa [firstIs, opensComment] using hcomment

theorem Reads.shapeAt_eq
    {kind : Kind} {c : Char} {body : List Char} (hreads : Reads last ⟨kind, c :: body⟩ behind) :
    shapeAt last c (body ++ behind) = (fun text => .token ⟨kind, text⟩, body.length) := by
  cases hreads with
  | word hfirst hword hbehind =>
      obtain ⟨hc, hbody⟩ := List.forall_mem_cons.mp hword
      have hwidth : wordWidth (body ++ behind) = body.length := by
        rw [wordWidth_append hbody, wordWidth_eq_zero_iff.mpr hbehind, Nat.add_zero]
      simp [shapeAt, hfirst, hc, wordChar_plain hc, hwidth]
  | mark hmark =>
      simp only [isMark, Bool.not_eq_true', Bool.or_eq_false_iff, beq_eq_false_iff_ne] at hmark
      simp [shapeAt, hmark]
  | slash hcomment hregex =>
      have hblank : isBlank '/' = false := rfl
      have hword : isWordChar '/' = false := rfl
      by_cases hallows : allowsRegex last
      · simp [shapeAt, hblank, hallows, not_comment_of_firstIs hcomment, hregex hallows]
      · simp [shapeAt, hblank, hword, hallows, not_comment_of_firstIs hcomment]
  | quoted hquote hwidth =>
      have hblank : isBlank c = false := by rcases hquote with rfl | rfl <;> rfl
      have hplain : c ≠ '/' ∧ c ≠ '\x60' := by rcases hquote with rfl | rfl <;> decide
      simp [shapeAt, hblank, hplain, hquote, hwidth]
  | template hwidth =>
      have hblank : isBlank '\x60' = false := rfl
      simp [shapeAt, hblank, hwidth]
  | @regex d inner flags _ hallows hcomment hends hflags hbehind =>
      have hblank : isBlank '/' = false := rfl
      have hd : d ≠ '/' ∧ d ≠ '*' := by simpa [opensComment] using hcomment
      have hwidth := hends (flags ++ behind)
      rw [wordWidth_append hflags, wordWidth_eq_zero_iff.mpr hbehind] at hwidth
      have htext : d :: inner ++ '/' :: flags ++ behind =
          d :: inner ++ '/' :: (flags ++ behind) := by
        simp
      rw [shapeAt, htext, hwidth]
      simp [hblank, hd, hallows]
      omega

theorem Reads.exists_cons (hreads : Reads last token behind) :
    ∃ kind c body, token = ⟨kind, c :: body⟩ ∧ isBlank c = false := by
  cases hreads with
  | word hfirst => exact ⟨_, _, _, rfl, hfirst⟩
  | mark hmark =>
      simp only [isMark, Bool.not_eq_true', Bool.or_eq_false_iff] at hmark
      exact ⟨_, _, _, rfl, hmark.1.1.1.1.1⟩
  | slash => exact ⟨_, _, _, rfl, rfl⟩
  | quoted hquote => exact ⟨_, _, _, rfl, by rcases hquote with rfl | rfl <;> rfl⟩
  | template => exact ⟨_, _, _, rfl, rfl⟩
  | regex => exact ⟨_, _, _, rfl, rfl⟩

theorem Reads.noBlankFirst_append (hreads : Reads last token behind) (text : List Char) :
    NoBlankFirst (token.text ++ text) := by
  obtain ⟨kind, c, body, rfl, hblank⟩ := hreads.exists_cons
  exact noBlankFirst_cons hblank

theorem Reads.piecesFrom_eq (hreads : Reads last token behind) :
    piecesFrom last (token.text ++ behind) =
      .token token :: piecesFrom (some token) behind := by
  obtain ⟨kind, c, body, rfl, -⟩ := hreads.exists_cons
  exact piecesFrom_append hreads.shapeAt_eq

/-! ## What begins at a place -/

def BeginsGap (c : Char) (rest : List Char) : Prop :=
  isBlank c ∨ c = '/' ∧ firstIs opensComment rest

theorem exists_reads_of_take
    {kind : Kind} {c : Char} {rest : List Char} (width : Nat)
    (hreads : Reads last ⟨kind, c :: rest.take width⟩ (rest.drop width)) :
    ∃ token behind, c :: rest = token.text ++ behind ∧ Reads last token behind :=
  ⟨_, _, by rw [List.cons_append, List.take_append_drop], hreads⟩

theorem exists_reads_slash
    {rest : List Char} (hcomment : firstIs opensComment rest = false) (last : Option Token) :
    ∃ token behind, '/' :: rest = token.text ++ behind ∧ Reads last token behind := by
  by_cases hregex : allowsRegex last = true ∧ (regexWidth? false rest).isSome
  · obtain ⟨hallows, hsome⟩ := hregex
    obtain ⟨width, hwidth⟩ := Option.isSome_iff_exists.mp hsome
    obtain ⟨inner, later, rfl, hends⟩ := exists_of_regexWidth? hwidth
    cases inner with
    | nil => contradiction
    | cons d inner =>
        refine ⟨⟨.literal, '/' :: (d :: inner ++ '/' :: later.take (wordWidth later))⟩,
          later.drop (wordWidth later), by simp, ?_⟩
        exact .regex hallows hcomment hends (allWord_take_wordWidth later)
          (firstIs_drop_wordWidth later)
  · refine ⟨⟨.punctuation, ['/']⟩, rest, rfl, .slash hcomment fun hallows => ?_⟩
    rw [← Option.not_isSome_iff_eq_none]
    exact fun hsome => hregex ⟨hallows, hsome⟩

theorem exists_reads
    {c : Char} {rest : List Char} (hgap : ¬ BeginsGap c rest) (last : Option Token) :
    ∃ token behind, c :: rest = token.text ++ behind ∧ Reads last token behind := by
  have hblank : isBlank c = false := by
    rw [← Bool.not_eq_true]
    exact fun hblank => hgap (.inl hblank)
  by_cases hword : isWordChar c
  · have hall : AllWord (c :: rest.take (wordWidth rest)) :=
      List.forall_mem_cons.mpr ⟨hword, allWord_take_wordWidth rest⟩
    exact exists_reads_of_take _ (.word hblank hall (firstIs_drop_wordWidth rest))
  by_cases hquote : c = '"' ∨ c = '\''
  · refine exists_reads_of_take (quotedWidth c rest) (.quoted hquote ?_)
    rw [List.take_append_drop, List.length_take_of_le (quotedWidth_le c rest)]
  by_cases htick : c = '\x60'
  · subst htick
    have hle : templateWidth rest ≤ rest.length := closeWidth_le [.template] rest
    refine exists_reads_of_take (templateWidth rest) (.template ?_)
    rw [List.take_append_drop, List.length_take_of_le hle]
  by_cases hslash : c = '/'
  · subst hslash
    refine exists_reads_slash ?_ last
    rw [← Bool.not_eq_true]
    exact fun hopens => hgap (.inr ⟨rfl, hopens⟩)
  · refine ⟨⟨.punctuation, [c]⟩, rest, rfl, .mark ?_⟩
    rw [not_or] at hquote
    simp [isMark, hblank, hword, hquote, htick, hslash]

/-! ## Reading a whole script -/

/-- The text is read as these tokens, each with the gap before it; `gap` is the gap before the
text. -/
inductive Lexes : Option Token → Gap → List Char → List (Gap × Token) → Prop
  | done (last : Option Token) (gap : Gap) : Lexes last gap [] []
  | skip {last : Option Token} {gap : Gap} {skipped text : List Char}
      {tokens : List (Gap × Token)} (hlater : Lexes last (gap.grow skipped) text tokens) :
      Lexes last gap (skipped ++ text) tokens
  | token {last : Option Token} {gap : Gap} {token : Token} {behind : List Char}
      {tokens : List (Gap × Token)} (hreads : Reads last token behind)
      (hlater : Lexes (some token) .closed behind tokens) :
      Lexes last gap (token.text ++ behind) ((gap, token) :: tokens)

theorem Gap.grow_ne_closed (gap : Gap) (text : List Char) : gap.grow text ≠ .closed := by
  rw [Gap.grow]
  split <;> exact Gap.noConfusion

variable {gap : Gap} {text : List Char} {tokens : List (Gap × Token)}

theorem Lexes.eq_nil (hlexes : Lexes last gap text tokens) (htext : text = []) : tokens = [] := by
  induction hlexes with
  | done => rfl
  | skip _ ih => exact ih (List.append_eq_nil_iff.mp htext).2
  | token hreads =>
      obtain ⟨_, _, _, rfl, -⟩ := hreads.exists_cons
      exact absurd (List.append_eq_nil_iff.mp htext).1 (List.cons_ne_nil _ _)

end Stencil.Script
