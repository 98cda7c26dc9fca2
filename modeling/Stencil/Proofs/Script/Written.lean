import Stencil.Proofs.Script.Piece
import Stencil.Proofs.Script.Rereading

/-!
# How a script is written

Writing goes from token to token.  At each of them it knows the parentheses so far, the token before
and the tokens behind, and it writes a separator and the token, or leaves the token out.  The blanks
that are trimmed from the end belong to the last token.
-/

namespace Stencil.Script

open Stencil.Text

variable {last : Option Token} {token : Token} {gap : Gap} {text : List Char}
  {rest tokens : List (Gap × Token)} {brackets : Brackets}

/-! ## Separators -/

def between (last : Option Token) (gap : Gap) (token : Token) : List Char :=
  match last with
  | some last => separator last.text gap token.text
  | none => []

theorem write_cons (brackets : Brackets) (last : Option Token) (gap : Gap) (token : Token)
    (rest : List (Gap × Token)) :
    write brackets last ((gap, token) :: rest) =
      between last gap token ++ (if isIdle brackets last token rest then [] else token.text) ++
        write (brackets.after last token) (some token) rest := rfl

theorem write_cons_of_not_idle
    (hkept : isIdle brackets last token rest = false) (gap : Gap) :
    write brackets last ((gap, token) :: rest) =
      between last gap token ++
        (token.text ++ write (brackets.after last token) (some token) rest) := by
  rw [write_cons, hkept, if_neg Bool.false_ne_true, List.append_assoc]

theorem isIdle_nil (brackets : Brackets) (last : Option Token) (token : Token) :
    isIdle brackets last token [] = false := by
  simp [isIdle]

theorem write_singleton (brackets : Brackets) (last : Option Token) (gap : Gap) (token : Token) :
    write brackets last [(gap, token)] = between last gap token ++ token.text := by
  rw [write_cons_of_not_idle (isIdle_nil brackets last token), write, List.append_nil]

theorem separator_mem (left : List Char) (gap : Gap) (right : List Char) :
    separator left gap right ∈ [[], [' '], ['\n']] := by
  unfold separator
  repeat' split
  all_goals simp

theorem between_mem (last : Option Token) (gap : Gap) (token : Token) :
    between last gap token ∈ [[], [' '], ['\n']] := by
  cases last with
  | none => exact List.mem_cons_self
  | some last => exact separator_mem last.text gap token.text

theorem separator_closer {c : Char} (hc : c = ';' ∨ c = '}') (left : List Char) (gap : Gap) :
    separator left gap [c] = [] := by
  have hword : firstIs isWordChar [c] = false := by rcases hc with rfl | rfl <;> rfl
  have hbegins : firstIs beginsStatement [c] = false := by rcases hc with rfl | rfl <;> rfl
  have htogether : runsTogether left [c] = false := by
    have hstar : firstIs (· == '*') [c] = false := by rcases hc with rfl | rfl <;> rfl
    rw [runsTogether, hstar, Bool.and_false, Bool.or_false, ← Bool.not_eq_true, Bool.and_eq_true]
    rintro ⟨hsign, hsame⟩
    rw [beq_iff_eq, List.head?_cons] at hsame
    rw [lastIs, hsame] at hsign
    rcases hc with rfl | rfl <;> contradiction
  simp [separator, hword, hbegins, htogether]

theorem apart_of_separator
    {left right : List Char} (hgap : gap ≠ .closed) (hnone : separator left gap right = [])
    {c : Char} (hc : c ∈ right.head?) : Apart left c := by
  obtain ⟨right, rfl⟩ : ∃ tail, right = c :: tail := by
    cases right with
    | nil => contradiction
    | cons d tail => exact ⟨tail, congrArg (· :: tail) (Option.some.inj hc)⟩
  rw [separator, if_neg hgap] at hnone
  split at hnone
  next => split at hnone <;> contradiction
  next hwords =>
    split at hnone
    next => contradiction
    next =>
      split at hnone
      next => contradiction
      next htogether =>
        refine ⟨fun hlast => ?_, fun hlast => ?_⟩
        · rw [← Bool.not_eq_true]
          exact fun hc => hwords (Bool.and_eq_true_iff.mpr ⟨hlast, hc⟩)
        · rw [← Bool.not_eq_true]
          intro hopens
          apply htogether
          simp only [opensComment, Bool.or_eq_true, beq_iff_eq] at hopens
          rcases hopens with rfl | rfl <;> simp [runsTogether, lastIs, firstIs, hlast]

theorem apart_of_mem_between {c : Char} (hc : c ∈ between last gap token) (left : List Char) :
    Apart left c := by
  have hblank : c = ' ' ∨ c = '\n' := by
    have hmem := between_mem last gap token
    generalize between last gap token = text at hc hmem
    simp only [List.mem_cons, List.not_mem_nil, or_false] at hmem
    rcases hmem with rfl | rfl | rfl
    · contradiction
    · exact .inl (List.mem_singleton.mp hc)
    · exact .inr (List.mem_singleton.mp hc)
  rcases hblank with rfl | rfl <;> exact ⟨fun _ => rfl, fun _ => rfl⟩

theorem between_closer {c : Char} (hc : c = ';' ∨ c = '}') (last : Option Token) (gap : Gap)
    (kind : Kind) : between last gap ⟨kind, [c]⟩ = [] := by
  cases last with
  | none => rfl
  | some last => exact separator_closer hc last.text gap

/-- The gap that a separator makes. -/
def gapOf (separator : List Char) : Gap :=
  if separator = [] then .closed else Gap.closed.grow separator

theorem gapped_piecesFrom_append
    {separator : List Char} (hseparator : separator ∈ [[], [' '], ['\n']])
    (htext : NoBlankFirst text) (last : Option Token) :
    gapped .closed (piecesFrom last (separator ++ text)) =
      gapped (gapOf separator) (piecesFrom last text) := by
  have hblank {c : Char} (hc : isBlank c) : piecesFrom last (c :: text) =
      .blank [c] :: piecesFrom last text := by
    have hsingle : AllBlank [c] := List.forall_mem_singleton.mpr hc
    exact (Piece.Fits.blank hsingle htext).piecesFrom_eq (List.cons_ne_nil c [])
  simp only [List.mem_cons, List.not_mem_nil, or_false] at hseparator
  rcases hseparator with rfl | rfl | rfl
  · rfl
  · rw [List.singleton_append, hblank rfl]
    rfl
  · rw [List.singleton_append, hblank rfl]
    rfl

/-! ## Trimming the last token -/

/-- The last token without the blanks at its end. -/
def trimLast : List (Gap × Token) → List (Gap × Token)
  | [] => []
  | (gap, token) :: rest =>
    (gap, if rest.isEmpty then token.trimmed else token) :: trimLast rest

theorem trimLast_singleton (gap : Gap) (token : Token) :
    trimLast [(gap, token)] = [(gap, token.trimmed)] := rfl

theorem trimLast_cons (hrest : rest ≠ []) (gap : Gap) (token : Token) :
    trimLast ((gap, token) :: rest) = (gap, token) :: trimLast rest := by
  rw [trimLast, List.isEmpty_eq_false_iff.mpr hrest, if_neg Bool.false_ne_true]

/-- Each token can be read somewhere. -/
def AllRead (tokens : List (Gap × Token)) : Prop :=
  ∀ entry ∈ tokens, ∃ last behind, Reads last entry.2 behind

theorem Lexes.allRead (hlexes : Lexes last gap text tokens) : AllRead tokens := by
  induction hlexes with
  | done => exact List.forall_mem_nil _
  | skip _ ih => exact ih
  | token hreads _ ih => exact List.forall_mem_cons.mpr ⟨⟨_, _, hreads⟩, ih⟩

theorem isIdle_trimLast (hread : AllRead rest) (brackets : Brackets) (last : Option Token)
    (token : Token) :
    isIdle brackets last token (trimLast rest) = isIdle brackets last token rest := by
  cases rest with
  | nil => rfl
  | cons entry rest =>
      obtain ⟨⟨_, _, hreads⟩, -⟩ := List.forall_mem_cons.mp hread
      have hsame : (if rest.isEmpty then entry.2.trimmed else entry.2).isPunct '}' =
          entry.2.isPunct '}' := by
        split
        next => exact hreads.isPunct_trimmed '}'
        next => rfl
      simp only [isIdle, trimLast, hsame]

theorem firstIs_congr {inClass : Char → Bool} {text text' : List Char}
    (hhead : text.head? = text'.head?) : firstIs inClass text = firstIs inClass text' := by
  rw [firstIs, firstIs, hhead]

theorem separator_congr {left right right' : List Char} (hhead : right.head? = right'.head?) :
    separator left gap right = separator left gap right' := by
  rw [separator, separator, runsTogether, runsTogether, hhead, firstIs_congr hhead,
    firstIs_congr hhead, firstIs_congr hhead]

theorem between_congr {token' : Token} (hhead : token.text.head? = token'.text.head?) :
    between last gap token = between last gap token' := by
  cases last with
  | none => rfl
  | some last => exact separator_congr hhead

theorem not_allBlank_write
    (hread : AllRead tokens) (hnonempty : tokens ≠ []) (brackets : Brackets)
    (last : Option Token) : ¬ AllBlank (write brackets last tokens) := by
  induction tokens generalizing brackets last with
  | nil => contradiction
  | cons entry rest ih =>
      obtain ⟨gap, token⟩ := entry
      obtain ⟨⟨_, _, hreads⟩, hlater⟩ := List.forall_mem_cons.mp hread
      intro hall
      by_cases hrest : rest = []
      · subst hrest
        rw [write_singleton] at hall
        exact hreads.not_allBlank fun c hc => hall c (List.mem_append_right _ hc)
      · rw [write_cons] at hall
        exact ih hlater hrest _ _ fun c hc => hall c (List.mem_append_right _ hc)

theorem trimEnd_write (hread : AllRead tokens) (brackets : Brackets) (last : Option Token) :
    trimEnd (write brackets last tokens) = write brackets last (trimLast tokens) := by
  induction tokens generalizing brackets last with
  | nil => rfl
  | cons entry rest ih =>
      obtain ⟨gap, token⟩ := entry
      obtain ⟨⟨_, _, hreads⟩, hlater⟩ := List.forall_mem_cons.mp hread
      by_cases hrest : rest = []
      · subst hrest
        rw [trimLast_singleton, write_singleton, write_singleton,
          between_congr hreads.head?_trimmed]
        exact trimEnd_append hreads.not_allBlank _
      · rw [trimLast_cons hrest, write_cons, write_cons, isIdle_trimLast hlater, ← ih hlater]
        exact trimEnd_append (not_allBlank_write hlater hrest _ _) _

/-! ## Places -/

/-- Where the writer stands: before a token, with what it knows of the tokens before it and the
tokens behind it. -/
structure Place where
  brackets : Brackets
  last : Option Token
  gap : Gap
  token : Token
  rest : List (Gap × Token)

namespace Place

def isIdle (place : Place) : Bool :=
  Script.isIdle place.brackets place.last place.token place.rest

def behind (place : Place) : List Char :=
  write (place.brackets.after place.last place.token) (some place.token) place.rest

def written (place : Place) : List Char :=
  between place.last place.gap place.token ++ if place.isIdle then [] else place.token.text

/-- The token is read again where it is written. -/
def stands (place : Place) : Bool :=
  Script.stands place.last place.token place.behind

/-- The token with the gap that is left before it. -/
def settled (place : Place) : Gap × Token :=
  (gapOf (between place.last place.gap place.token), place.token)

end Place

def placesFrom (brackets : Brackets) (last : Option Token) : List (Gap × Token) → List Place
  | [] => []
  | (gap, token) :: rest =>
    ⟨brackets, last, gap, token, rest⟩ ::
      placesFrom (brackets.after last token) (some token) rest

/-- The places of the tokens that are not left out. -/
def keptFrom (brackets : Brackets) (last : Option Token) (tokens : List (Gap × Token)) :
    List Place :=
  (placesFrom brackets last tokens).filter (!·.isIdle)

theorem write_eq_flatMap (brackets : Brackets) (last : Option Token)
    (tokens : List (Gap × Token)) :
    write brackets last tokens = (placesFrom brackets last tokens).flatMap Place.written := by
  induction tokens generalizing brackets last with
  | nil => rfl
  | cons entry rest ih => rw [write_cons, ih]; rfl

theorem keptFrom_cons_of_idle
    (hidle : isIdle brackets last token rest) (gap : Gap) :
    keptFrom brackets last ((gap, token) :: rest) =
      keptFrom (brackets.after last token) (some token) rest := by
  rw [keptFrom, placesFrom, List.filter_cons_of_neg]
  · rfl
  · rw [Place.isIdle, hidle]
    decide

theorem keptFrom_cons_of_not_idle
    (hkept : isIdle brackets last token rest = false) (gap : Gap) :
    keptFrom brackets last ((gap, token) :: rest) =
      ⟨brackets, last, gap, token, rest⟩ ::
        keptFrom (brackets.after last token) (some token) rest := by
  rw [keptFrom, placesFrom, List.filter_cons_of_pos]
  · rfl
  · rw [Place.isIdle, hkept]
    rfl

theorem keptFrom_singleton (brackets : Brackets) (last : Option Token) (gap : Gap)
    (token : Token) :
    keptFrom brackets last [(gap, token)] = [⟨brackets, last, gap, token, []⟩] :=
  keptFrom_cons_of_not_idle (isIdle_nil brackets last token) gap

/-! ## Idle semicolons -/

theorem eq_of_isPunct {c : Char} (hpunct : token.isPunct c) : token = ⟨.punctuation, [c]⟩ :=
  beq_iff_eq.mp hpunct

theorem exists_of_isIdle (hidle : isIdle brackets last token rest) :
    token = ⟨.punctuation, [';']⟩ ∧ ∃ gap later, rest = (gap, ⟨.punctuation, ['}']⟩) :: later := by
  simp only [isIdle, Bool.and_eq_true] at hidle
  obtain ⟨⟨hsemicolon, hnext⟩, -⟩ := hidle
  refine ⟨eq_of_isPunct hsemicolon, ?_⟩
  cases rest with
  | nil => contradiction
  | cons entry later => exact ⟨entry.1, later, by rw [← eq_of_isPunct hnext]⟩

theorem sameSight_of_isIdle (hidle : isIdle brackets last token rest) (seen last' : Option Token) :
    ∀ entry ∈ rest.head?, SameSight seen last' entry.2 := by
  obtain ⟨-, gap, later, rfl⟩ := exists_of_isIdle hidle
  intro entry hentry
  obtain rfl := Option.some.inj hentry
  exact .inr rfl

theorem isIdle_eq_false_of_ne (htoken : token ≠ ⟨.punctuation, [';']⟩) (brackets : Brackets)
    (last : Option Token) (rest : List (Gap × Token)) :
    isIdle brackets last token rest = false := by
  rw [← Bool.not_eq_true]
  exact fun hidle => htoken (exists_of_isIdle hidle).1

theorem write_cons_of_idle (hidle : isIdle brackets last token rest) (gap : Gap) :
    write brackets last ((gap, token) :: rest) =
      write (brackets.after last token) (some token) rest := by
  obtain ⟨rfl, -⟩ := exists_of_isIdle hidle
  rw [write_cons, if_pos hidle, between_closer (.inl rfl)]
  rfl

end Stencil.Script
