import Stencil.Proofs.Script.Written

/-!
# The tokens of a minified script

A minified script is read as the tokens that were written exactly if each of them stands where it is
written and the last one keeps its end.  Nothing else can go wrong: what is written behind a token
begins as it did in the script or apart from the token.
-/

namespace Stencil.Script

open Stencil.Text

variable {last seen : Option Token} {token : Token} {gap : Gap} {text behind : List Char}
  {rest tokens : List (Gap × Token)} {brackets : Brackets}

/-! ## How the text behind a token begins -/

/-- Where no gap stands, the text begins as its first token. -/
theorem Lexes.head?_eq
    (hlexes : Lexes last gap text tokens) {next : Token}
    (htokens : tokens = (.closed, next) :: rest) :
    gap = .closed ∧ text.head? = next.text.head? := by
  induction hlexes with
  | done => contradiction
  | skip _ ih => exact absurd (ih htokens).1 (Gap.grow_ne_closed _ _)
  | token hreads =>
      obtain ⟨hentry, -⟩ := List.cons.inj htokens
      obtain ⟨rfl, rfl⟩ := Prod.mk.inj hentry
      obtain ⟨kind, c, body, rfl, -⟩ := hreads.exists_cons
      exact ⟨rfl, rfl⟩

theorem head?_write_of_closer
    (hcloser : tokens = (gap, ⟨.punctuation, ['}']⟩) :: rest) (brackets : Brackets)
    (last : Option Token) : (write brackets last tokens).head? = some '}' := by
  have hkept : isIdle brackets last ⟨.punctuation, ['}']⟩ rest = false :=
    isIdle_eq_false_of_ne (by decide) brackets last rest
  rw [hcloser, write_cons, between_closer (.inr rfl), hkept]
  rfl

/-- Written text begins with a separator, with a closing brace in place of an idle semicolon, or
with its first token. -/
theorem head?_write_cons
    {c d : Char} (hfirst : token.text.head? = some d)
    (hc : c ∈ (write brackets last ((gap, token) :: rest)).head?) :
    c ∈ between last gap token ∨ between last gap token = [] ∧ (c = '}' ∨ c = d) := by
  rw [write_cons, List.append_assoc, List.head?_append, Option.mem_def,
    Option.or_eq_some_iff] at hc
  rcases hc with hseparator | ⟨hnone, hc⟩
  · exact .inl (List.mem_of_mem_head? hseparator)
  right
  refine ⟨List.head?_eq_none_iff.mp hnone, ?_⟩
  by_cases hidle : isIdle brackets last token rest
  · obtain ⟨-, gap', later, hcloser⟩ := exists_of_isIdle hidle
    rw [if_pos hidle, List.nil_append, head?_write_of_closer hcloser] at hc
    exact .inl (Option.some.inj hc).symm
  · rw [if_neg hidle, List.head?_append, hfirst, Option.some_or] at hc
    exact .inr (Option.some.inj hc).symm

/-- What is written behind a token may follow it in place of the text behind it. -/
theorem Lexes.mayFollow_write
    (hlexes : Lexes (some token) .closed behind rest) (brackets : Brackets) :
    MayFollow token behind (write brackets (some token) (trimLast rest)) where
  empty := by
    intro hempty
    rw [hlexes.eq_nil hempty]
    rfl
  first := by
    cases rest with
    | nil => exact nofun
    | cons entry later =>
        obtain ⟨gap, next⟩ := entry
        obtain ⟨⟨_, _, hreads⟩, -⟩ := List.forall_mem_cons.mp hlexes.allRead
        replace hreads : Reads _ next _ := hreads
        rw [trimLast]
        generalize hfound : (if later.isEmpty then next.trimmed else next) = found
        have hhead : found.text.head? = next.text.head? := by
          rw [← hfound]
          split
          next => exact hreads.head?_trimmed
          next => rfl
        intro c hc
        obtain ⟨kind, d, body, hnext, -⟩ := hreads.exists_cons
        have hfirst : found.text.head? = some d := by rw [hhead, hnext]; rfl
        rcases head?_write_cons hfirst hc with hseparator | ⟨hnone, rfl | rfl⟩
        · exact .inr (apart_of_mem_between hseparator _)
        · exact .inr ⟨fun _ => rfl, fun _ => rfl⟩
        · by_cases hgap : gap = .closed
          · subst hgap
            left
            rw [(hlexes.head?_eq rfl).2, ← hhead, hfirst]
          · right
            exact apart_of_separator hgap hnone hfirst

/-! ## Reading what is written -/

theorem gapped_of_reads
    (hreads : Reads seen token behind) {separator : List Char}
    (hseparator : separator ∈ [[], [' '], ['\n']]) :
    gapped .closed (piecesFrom seen (separator ++ (token.text ++ behind))) =
      (gapOf separator, token) :: gapped .closed (piecesFrom (some token) behind) := by
  rw [gapped_piecesFrom_append hseparator (hreads.noBlankFirst_append behind),
    hreads.piecesFrom_eq]
  rfl

theorem gapped_of_reads_nil
    (hreads : Reads seen token []) {separator : List Char}
    (hseparator : separator ∈ [[], [' '], ['\n']]) :
    gapped .closed (piecesFrom seen (separator ++ token.text)) = [(gapOf separator, token)] := by
  have hread := gapped_of_reads hreads hseparator
  rwa [List.append_nil, piecesFrom_nil] at hread

/-- Minified text is read as the tokens that were kept, with the gaps that were left. -/
theorem Lexes.gapped_write
    (hlexes : Lexes last gap text tokens)
    (hsight : ∀ entry ∈ tokens.head?, SameSight seen last entry.2)
    (hstands : ∀ place ∈ placesFrom brackets last (trimLast tokens), place.stands) :
    gapped .closed (piecesFrom seen (write brackets last (trimLast tokens))) =
      (keptFrom brackets last (trimLast tokens)).map Place.settled := by
  induction hlexes generalizing seen brackets with
  | done => rw [trimLast, write, piecesFrom_nil]; rfl
  | skip _ ih => exact ih hsight hstands
  | @token last gap token behind rest hreads hlater ih =>
      have hhere : SameSight seen last token := hsight (gap, token) rfl
      by_cases hrest : rest = []
      · subst hrest
        rw [trimLast_singleton, write_singleton, keptFrom_singleton,
          gapped_of_reads_nil (hreads.trimmed hhere) (between_mem last gap token.trimmed)]
        rfl
      · rw [trimLast_cons hrest] at hstands ⊢
        obtain ⟨hstand, hstands⟩ := List.forall_mem_cons.mp hstands
        by_cases hidle : isIdle brackets last token (trimLast rest)
        · -- Nothing is read here, so the brace behind it comes after another token than before.
          rw [write_cons_of_idle hidle, keptFrom_cons_of_idle hidle]
          rw [isIdle_trimLast hlater.allRead] at hidle
          exact ih (sameSight_of_isIdle hidle seen _) hstands
        · rw [Bool.not_eq_true] at hidle
          have hagain := hreads.of_stands hhere (hlater.mayFollow_write _) hstand
          rw [write_cons_of_not_idle hidle, keptFrom_cons_of_not_idle hidle,
            gapped_of_reads hagain (between_mem last gap token),
            ih (fun _ _ => .inl rfl) hstands]
          rfl

/-! ## What the tokens of minified text tell -/

theorem Reads.of_tokens
    (hreads : Reads last token behind) {behind' separator : List Char} {later : List Token}
    (hfollow : MayFollow token behind behind') (hseparator : separator ∈ [[], [' '], ['\n']])
    (hsame : (gapped .closed (piecesFrom seen (separator ++ (token.text ++ behind')))).map
      Prod.snd = token :: later) : Reads seen token behind' := by
  obtain ⟨kind, c, body, htoken, -⟩ := hreads.exists_cons
  have htext : token.text = c :: body := congrArg Token.text htoken
  obtain ⟨found, behind'', hsplit, hfound⟩ :=
    exists_reads (hreads.not_beginsGap hfollow htext) seen
  rw [← List.cons_append, ← htext] at hsplit
  rw [hsplit, gapped_of_reads hfound hseparator, List.map_cons] at hsame
  obtain rfl : found = token := (List.cons.inj hsame).1
  rwa [List.append_cancel_left hsplit]

/-- If minified text has the tokens that were kept, each of them stands and none was trimmed. -/
theorem Lexes.stands_of_tokens
    (hlexes : Lexes last gap text tokens)
    (hsight : ∀ entry ∈ tokens.head?, SameSight seen last entry.2)
    (hsame : (gapped .closed (piecesFrom seen (write brackets last (trimLast tokens)))).map
      Prod.snd = (keptFrom brackets last tokens).map Place.token) :
    (∀ place ∈ placesFrom brackets last (trimLast tokens), place.stands) ∧
      trimLast tokens = tokens := by
  induction hlexes generalizing seen brackets with
  | done => exact ⟨List.forall_mem_nil _, rfl⟩
  | skip _ ih => exact ih hsight hsame
  | @token last gap token behind rest hreads hlater ih =>
      have hhere : SameSight seen last token := hsight (gap, token) rfl
      by_cases hrest : rest = []
      · subst hrest
        have htrimmed := hreads.trimmed hhere
        rw [trimLast_singleton, write_singleton, keptFrom_singleton,
          gapped_of_reads_nil htrimmed (between_mem last gap token.trimmed)] at hsame
        have hkept : token.trimmed = token := (List.cons.inj hsame).1
        rw [hkept] at htrimmed
        rw [trimLast_singleton, hkept]
        exact ⟨List.forall_mem_cons.mpr ⟨htrimmed.stands hhere, List.forall_mem_nil _⟩, rfl⟩
      · rw [trimLast_cons hrest] at hsame ⊢
        have hkeeps := isIdle_trimLast hlater.allRead brackets last token
        by_cases hidle : isIdle brackets last token rest
        · rw [write_cons_of_idle (hkeeps.trans hidle), keptFrom_cons_of_idle hidle] at hsame
          obtain ⟨hstands, hwhole⟩ := ih (sameSight_of_isIdle hidle seen _) hsame
          obtain ⟨rfl, -⟩ := exists_of_isIdle hidle
          exact ⟨List.forall_mem_cons.mpr ⟨rfl, hstands⟩, congrArg _ hwhole⟩
        · rw [Bool.not_eq_true] at hidle
          rw [write_cons_of_not_idle (hkeeps.trans hidle),
            keptFrom_cons_of_not_idle hidle] at hsame
          have hagain := hreads.of_tokens (hlater.mayFollow_write _)
            (between_mem last gap token) hsame
          rw [gapped_of_reads hagain (between_mem last gap token)] at hsame
          obtain ⟨hstands, hwhole⟩ := ih (fun _ _ => .inl rfl) (List.cons.inj hsame).2
          exact ⟨List.forall_mem_cons.mpr ⟨hagain.stands hhere, hstands⟩, congrArg _ hwhole⟩

/-! ## The tokens of a minified script -/

def tokensOf (script : List Char) : List Token :=
  (gapped .closed (pieces script)).map Prod.snd

def keptTokens (script : List Char) : List Token :=
  (keptFrom ⟨[], false⟩ none (gapped .closed (pieces script))).map Place.token

def places (script : List Char) : List Place :=
  placesFrom ⟨[], false⟩ none (trimLast (gapped .closed (pieces script)))

theorem noBlankFirst_write (hread : AllRead tokens) (brackets : Brackets) :
    NoBlankFirst (write brackets none tokens) := by
  cases tokens with
  | nil => exact nofun
  | cons entry rest =>
      obtain ⟨gap, token⟩ := entry
      obtain ⟨⟨_, _, hreads⟩, -⟩ := List.forall_mem_cons.mp hread
      obtain ⟨kind, c, body, rfl, hblank⟩ := hreads.exists_cons
      intro d hd
      rcases head?_write_cons rfl hd with hseparator | ⟨-, rfl | rfl⟩
      · contradiction
      · rfl
      · exact hblank

theorem lexes_pieces (script : List Char) :
    Lexes none .closed script (gapped .closed (pieces script)) :=
  (consists_piecesFrom none script).lexes .closed

/-- Minifying writes the tokens, the last one trimmed. -/
theorem minify_eq (script : List Char) :
    minify script = write ⟨[], false⟩ none (trimLast (gapped .closed (pieces script))) := by
  have hread := (lexes_pieces script).allRead
  rw [minify, trim, skipBlanks_of_noBlankFirst (noBlankFirst_write hread _), trimEnd_write hread]

theorem gapped_pieces_minify
    {script : List Char} (hstands : ∀ place ∈ places script, place.stands) :
    gapped .closed (pieces (minify script)) =
      (keptFrom ⟨[], false⟩ none (trimLast (gapped .closed (pieces script)))).map
        Place.settled := by
  rw [minify_eq]
  exact (lexes_pieces script).gapped_write (fun _ _ => .inl rfl) hstands

theorem Token.trimmed_eq_self_iff :
    token.trimmed = token ↔ ∀ c ∈ token.text.getLast?, isBlank c = false := by
  obtain ⟨kind, text⟩ := token
  rw [← trimEnd_eq_self_iff, Token.trimmed, Token.mk.injEq]
  exact and_iff_right rfl

theorem trimLast_eq_self_iff :
    trimLast tokens = tokens ↔
      ∀ token ∈ (tokens.map Prod.snd).getLast?, ∀ c ∈ token.text.getLast?, isBlank c = false := by
  induction tokens with
  | nil => exact iff_of_true rfl nofun
  | cons entry rest ih =>
      obtain ⟨gap, token⟩ := entry
      cases rest with
      | nil => simp [trimLast, Token.trimmed_eq_self_iff]
      | cons next later =>
          rw [trimLast, List.isEmpty_cons, if_neg Bool.false_ne_true, List.cons_eq_cons, ih,
            List.map_cons, List.map_cons, List.map_cons, List.getLast?_cons_cons]
          exact and_iff_right rfl

/-- A minified script has the tokens of the script, as far as they are not left out, exactly if each
of them stands where it is written and the last one does not end with a blank. -/
theorem tokensOf_minify_eq_iff (script : List Char) :
    tokensOf (minify script) = keptTokens script ↔
      (∀ place ∈ places script, place.stands) ∧
        ∀ token ∈ (tokensOf script).getLast?, ∀ c ∈ token.text.getLast?, isBlank c = false := by
  rw [tokensOf, tokensOf, ← trimLast_eq_self_iff]
  constructor
  · intro hsame
    rw [minify_eq] at hsame
    exact (lexes_pieces script).stands_of_tokens (fun _ _ => .inl rfl) hsame
  · rintro ⟨hstands, hwhole⟩
    rw [gapped_pieces_minify hstands, hwhole, List.map_map, keptTokens]
    rfl

/-- The word behind the regular expression is read as its flags when the blank between them is
gone. -/
theorem tokensOf_minify_ne_of_flags :
    tokensOf (minify "/a/ in b".toList) ≠ keptTokens "/a/ in b".toList := by
  decide +kernel

end Stencil.Script
