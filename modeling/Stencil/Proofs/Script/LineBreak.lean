import Stencil.Proofs.Script.Tokens

/-!
# Line breaks that end statements

A line break behind an operand and before another one ends a statement, and is written.  It is
lost before a sign, behind a regular expression without flags, and behind a string that is broken
off at a character that ends no statement.
-/

namespace Stencil.Script

open Stencil.Text

variable {last : Option Token} {token : Token} {gap : Gap} {text behind : List Char}
  {rest tokens : List (Gap × Token)} {brackets : Brackets}

/-! ## Operands -/

/-- A word, a literal or a closing bracket. -/
def endsOperand (token : Token) : Bool :=
  token.kind != .punctuation || token.isPunct ']'

def isString (token : Token) : Bool :=
  token.kind == .literal && firstIs (fun c => c == '"' || c == '\'') token.text

def isSign (token : Token) : Bool :=
  token.isPunct '+' || token.isPunct '-'

/-- A word, a string in quotes, or the first one of two signs. -/
def beginsOperand (token : Token) (rest : List (Gap × Token)) : Bool :=
  token.kind == .word || isString token || (isSign token && rest.head? == some (.closed, token))

def isBareRegex (token : Token) : Bool :=
  token.kind == .literal && firstIs (· == '/') token.text && lastIs (· == '/') token.text

/-- A string that ends with its line, behind a character that ends no statement. -/
def isBrokenOff (token : Token) : Bool :=
  isString token && !lastIs endsStatement token.text

theorem eq_of_isSign (hsign : isSign token) :
    token = ⟨.punctuation, ['+']⟩ ∨ token = ⟨.punctuation, ['-']⟩ :=
  (Bool.or_eq_true_iff.mp hsign).imp eq_of_isPunct eq_of_isPunct

theorem endsStatement_of_isWordChar {c : Char} (hword : isWordChar c) : endsStatement c := by
  simp [endsStatement, hword]

theorem beginsStatement_of_isWordChar {c : Char} (hword : isWordChar c) : beginsStatement c := by
  simp [beginsStatement, hword]

theorem lastIs_mono
    {inClass inClass' : Char → Bool} (himp : ∀ c, inClass c → inClass' c) {text : List Char}
    (hlast : lastIs inClass text) : lastIs inClass' text := by
  unfold lastIs at hlast ⊢
  split at hlast
  next c hc => simpa [hc] using himp c hlast
  next => contradiction

theorem firstIs_mono
    {inClass inClass' : Char → Bool} (himp : ∀ c, inClass c → inClass' c) {text : List Char}
    (hfirst : firstIs inClass text) : firstIs inClass' text := by
  unfold firstIs at hfirst ⊢
  split at hfirst
  next c hc => simpa [hc] using himp c hfirst
  next => contradiction

/-- A line break is written exactly if the token before it may end a statement and the one behind it
may begin one. -/
theorem separator_line_eq_iff {left right : List Char} :
    separator left .line right = ['\n'] ↔
      lastIs endsStatement left ∧ firstIs beginsStatement right := by
  rw [separator, if_neg Gap.noConfusion]
  by_cases hwords : lastIs isWordChar left && firstIs isWordChar right
  · rw [if_pos hwords, if_pos rfl]
    rw [Bool.and_eq_true] at hwords
    exact iff_of_true rfl ⟨lastIs_mono (fun _ => endsStatement_of_isWordChar) hwords.1,
      firstIs_mono (fun _ => beginsStatement_of_isWordChar) hwords.2⟩
  · rw [if_neg hwords, decide_eq_true rfl, Bool.true_and, ← Bool.and_eq_true_iff]
    split
    next hstatement => exact iff_of_true rfl hstatement
    next hstatement =>
      refine iff_of_false ?_ hstatement
      split <;> simp

/-! ## How operands end and begin -/

theorem lastIs_concat (inClass : Char → Bool) (front : List Char) (c : Char) :
    lastIs inClass (front ++ [c]) = inClass c := by
  rw [lastIs, List.getLast?_concat]

/-- A regular expression ends with its slash or with the last one of its flags. -/
theorem lastIs_endsStatement_regex_iff
    {flags : List Char} (hflags : AllWord flags) (front : List Char) :
    lastIs endsStatement (front ++ '/' :: flags) ↔ ¬ lastIs (· == '/') (front ++ '/' :: flags) := by
  obtain rfl | ⟨flags, c, rfl⟩ := flags.eq_nil_or_concat
  · rw [lastIs_concat, lastIs_concat]
    decide
  · have hword : isWordChar c := hflags c (by simp)
    have hsplit : front ++ '/' :: flags.concat c = front ++ '/' :: flags ++ [c] := by simp
    have hslash : (c == '/') = false := beq_eq_false_iff_ne.mpr (wordChar_plain hword).1
    rw [hsplit, lastIs_concat, lastIs_concat, hslash]
    exact iff_of_true (endsStatement_of_isWordChar hword) Bool.false_ne_true

/-- An operand that something follows ends so that a statement may end, unless it is one of two
kinds of literals. -/
theorem Reads.lastIs_endsStatement_iff
    (hreads : Reads last token behind) (hbehind : behind ≠ []) (htoken : endsOperand token) :
    lastIs endsStatement token.text ↔ ¬ isBareRegex token ∧ ¬ isBrokenOff token := by
  cases hreads with
  | @word c body _ hfirst hword _ =>
      have hlast : lastIs endsStatement (c :: body) :=
        lastIs_mono (fun _ => endsStatement_of_isWordChar) (lastIs_of_allWord hword)
      simp [hlast, isBareRegex, isBrokenOff, isString]
  | @mark c _ hmark =>
      have hc : c = ']' := by simpa [endsOperand, Token.isPunct] using htoken
      subst hc
      simp [isBareRegex, isBrokenOff, isString, lastIs, endsStatement]
  | slash => contradiction
  | @quoted quote body _ hquote hwidth =>
      have hslash : quote ≠ '/' := by rcases hquote with rfl | rfl <;> decide
      simp [isBareRegex, isBrokenOff, isString, firstIs, hquote, hslash]
  | @template body _ hwidth =>
      obtain ⟨c, rest, rfl⟩ := List.exists_cons_of_ne_nil hbehind
      have hlast : body.getLast? = some '\x60' := getLast?_of_closeWidth rfl hwidth
      simp [isBareRegex, isBrokenOff, isString, firstIs, lastIs, List.getLast?_cons, hlast,
        endsStatement]
  | @regex d inner flags _ hallows hcomment hends hflags _ =>
      have hlast := lastIs_endsStatement_regex_iff hflags ('/' :: d :: inner)
      simpa [isBareRegex, isBrokenOff, isString, firstIs] using hlast

/-- An operand begins so that a statement may begin, unless it begins with a sign. -/
theorem Reads.firstIs_beginsStatement_iff
    (hreads : Reads last token behind) (htoken : beginsOperand token rest) :
    firstIs beginsStatement token.text ↔ ¬ isSign token := by
  simp only [beginsOperand, Bool.or_eq_true, Bool.and_eq_true, beq_iff_eq] at htoken
  rcases htoken with (hword | hstring) | ⟨hsign, -⟩
  · cases hreads with
    | @word c body _ hfirst hall _ =>
        have hc : isWordChar c := hall c List.mem_cons_self
        simp [firstIs, beginsStatement_of_isWordChar hc, isSign, Token.isPunct]
    | mark => contradiction
    | slash => contradiction
    | quoted => contradiction
    | template => contradiction
    | regex => contradiction
  · simp only [isString, Bool.and_eq_true, beq_iff_eq] at hstring
    obtain ⟨hkind, hquote⟩ := hstring
    have hbegins : firstIs beginsStatement token.text := by
      refine firstIs_mono (fun c hc => ?_) hquote
      rw [Bool.or_eq_true, beq_iff_eq, beq_iff_eq] at hc
      rcases hc with rfl | rfl <;> rfl
    refine iff_of_true hbegins fun hsign => ?_
    rcases eq_of_isSign hsign with rfl | rfl <;> contradiction
  · refine iff_of_false ?_ (not_not_intro hsign)
    rcases eq_of_isSign hsign with rfl | rfl <;> decide

/-! ## Around a line break -/

theorem Lexes.exists_reads
    (hlexes : Lexes last gap text tokens) (front : List (Gap × Token)) {gap' : Gap}
    (htokens : tokens = front ++ (gap', token) :: rest) :
    ∃ last' behind, Reads last' token behind ∧ Lexes (some token) .closed behind rest := by
  induction hlexes generalizing front with
  | done => simp at htokens
  | skip _ ih => exact ih front htokens
  | token hreads hlater ih =>
      cases front with
      | nil =>
          obtain ⟨hentry, rfl⟩ := List.cons.inj htokens
          obtain ⟨-, rfl⟩ := Prod.mk.inj hentry
          exact ⟨_, _, hreads, hlater⟩
      | cons entry front => exact ih front (List.cons.inj htokens).2

theorem exists_placesFrom_append
    (front rest : List (Gap × Token)) (brackets : Brackets) (last : Option Token) :
    ∃ places brackets' last', places.length = front.length ∧
      placesFrom brackets last (front ++ rest) = places ++ placesFrom brackets' last' rest := by
  induction front generalizing brackets last with
  | nil => exact ⟨[], brackets, last, rfl, rfl⟩
  | cons entry front ih =>
      obtain ⟨places, brackets', last', hlength, hplaces⟩ :=
        ih (brackets.after last entry.2) (some entry.2)
      refine ⟨⟨brackets, last, entry.1, entry.2, front ++ rest⟩ :: places, brackets', last',
        congrArg Nat.succ hlength, ?_⟩
      rw [List.cons_append, placesFrom, hplaces, List.cons_append]

/-- The places of all tokens, before the last one is trimmed. -/
def allPlaces (script : List Char) : List Place :=
  placesFrom ⟨[], false⟩ none (gapped .closed (pieces script))

def writtenBefore (script : List Char) (count : Nat) : List Char :=
  ((allPlaces script).take count).flatMap Place.written

def writtenBehind (script : List Char) (count : Nat) : List Char :=
  ((allPlaces script).drop count).flatMap Place.written

theorem minify_eq_trimEnd_written (script : List Char) (count : Nat) :
    minify script = trimEnd (writtenBefore script count ++ writtenBehind script count) := by
  have hread := (lexes_pieces script).allRead
  rw [minify, trim, skipBlanks_of_noBlankFirst (noBlankFirst_write hread _), write_eq_flatMap,
    writtenBefore, writtenBehind, ← List.flatMap_append, List.take_append_drop, allPlaces]

theorem written_of_ne
    (htoken : token ≠ ⟨.punctuation, [';']⟩) (brackets : Brackets) (last : Option Token)
    (gap : Gap) (rest : List (Gap × Token)) :
    Place.written ⟨brackets, last, gap, token, rest⟩ = between last gap token ++ token.text := by
  rw [Place.written, Place.isIdle, isIdle_eq_false_of_ne htoken, if_neg Bool.false_ne_true]

theorem exists_written
    {script : List Char} {front : List (Gap × Token)} {gap' : Gap} {next : Token}
    (htokens : gapped .closed (pieces script) = front ++ (gap, token) :: (gap', next) :: rest)
    (htoken : token ≠ ⟨.punctuation, [';']⟩) (hnext : next ≠ ⟨.punctuation, [';']⟩) :
    ∃ before later,
      writtenBefore script (front.length + 1) = before ++ token.text ∧
      writtenBehind script (front.length + 1) =
        separator token.text gap' next.text ++ (next.text ++ later) := by
  obtain ⟨places, brackets, last, hlength, hplaces⟩ := exists_placesFrom_append front
    ((gap, token) :: (gap', next) :: rest) ⟨[], false⟩ none
  let here : Place := ⟨brackets, last, gap, token, (gap', next) :: rest⟩
  let there : Place := ⟨brackets.after last token, some token, gap', next, rest⟩
  have hhere : here.written = between last gap token ++ token.text :=
    written_of_ne htoken brackets last gap _
  have hthere : there.written = separator token.text gap' next.text ++ next.text :=
    written_of_ne hnext _ (some token) gap' rest
  obtain ⟨others, hall⟩ : ∃ others, allPlaces script = (places ++ [here]) ++ there :: others := by
    refine ⟨placesFrom (there.brackets.after there.last next) (some next) rest, ?_⟩
    rw [allPlaces, htokens, hplaces, placesFrom, placesFrom, List.append_assoc,
      List.singleton_append]
  have hcount : (places ++ [here]).length = front.length + 1 := by
    rw [List.length_append, hlength, List.length_singleton]
  refine ⟨places.flatMap Place.written ++ between last gap token, others.flatMap Place.written,
    ?_, ?_⟩
  · rw [writtenBefore, hall, ← hcount, List.take_left, List.flatMap_append, List.flatMap_singleton,
      hhere, List.append_assoc]
  · rw [writtenBehind, hall, ← hcount, List.drop_left, List.flatMap_cons, hthere,
      List.append_assoc]

/-- A line break behind an operand and before another one is written, except before a sign, behind
a regular expression without flags, and behind a string that is broken off. -/
theorem minify_line_break_iff
    {script : List Char} {front : List (Gap × Token)} {next : Token}
    (htokens : gapped .closed (pieces script) = front ++ (gap, token) :: (.line, next) :: rest)
    (htoken : endsOperand token) (hnext : beginsOperand next rest) :
    ∃ before line later,
      writtenBefore script (front.length + 1) = before ++ token.text ∧
      writtenBehind script (front.length + 1) = line ++ (next.text ++ later) ∧
      minify script = before ++ token.text ++ (line ++ trimEnd (next.text ++ later)) ∧
      line ∈ [[], [' '], ['\n']] ∧
      (line = ['\n'] ↔ ¬ isSign next ∧ ¬ isBareRegex token ∧ ¬ isBrokenOff token) := by
  have hlexes := lexes_pieces script
  obtain ⟨last, behind, hreads, hlater⟩ := hlexes.exists_reads front htokens
  obtain ⟨_, _, hreads', -⟩ := hlater.exists_reads [] rfl
  have hkept : token ≠ ⟨.punctuation, [';']⟩ := by
    rintro rfl
    contradiction
  have hkept' : next ≠ ⟨.punctuation, [';']⟩ := by
    rintro rfl
    contradiction
  obtain ⟨before, later, hbefore, hbehind⟩ := exists_written htokens hkept hkept'
  have hsolid : ¬ AllBlank (next.text ++ later) := fun hall =>
    hreads'.not_allBlank fun c hc => hall c (List.mem_append_left later hc)
  have hnonempty : behind ≠ [] := by
    intro hnone
    exact absurd (hlater.eq_nil hnone) (List.cons_ne_nil _ _)
  refine ⟨before, _, later, hbefore, hbehind, ?_, separator_mem _ _ _, ?_⟩
  · rw [minify_eq_trimEnd_written script (front.length + 1), hbefore, hbehind, ← List.append_assoc,
      trimEnd_append hsolid, List.append_assoc]
  · rw [separator_line_eq_iff, hreads.lastIs_endsStatement_iff hnonempty htoken,
      hreads'.firstIs_beginsStatement_iff hnext, and_comm]

theorem minify_line_break_iff_of_flags :
    gapped .closed (pieces "x = /a/g\ny".toList) =
        [(.closed, ⟨.word, "x".toList⟩), (.space, ⟨.punctuation, "=".toList⟩)] ++
          (.space, ⟨.literal, "/a/g".toList⟩) :: (.line, ⟨.word, "y".toList⟩) :: [] ∧
      ∃ before line later,
        writtenBefore "x = /a/g\ny".toList 3 = before ++ "/a/g".toList ∧
        writtenBehind "x = /a/g\ny".toList 3 = line ++ ("y".toList ++ later) ∧
        minify "x = /a/g\ny".toList =
          before ++ "/a/g".toList ++ (line ++ trimEnd ("y".toList ++ later)) ∧
        line ∈ [[], [' '], ['\n']] ∧
        (line = ['\n'] ↔ ¬ isSign ⟨.word, "y".toList⟩ ∧ ¬ isBareRegex ⟨.literal, "/a/g".toList⟩ ∧
          ¬ isBrokenOff ⟨.literal, "/a/g".toList⟩) := by
  have htokens : gapped .closed (pieces "x = /a/g\ny".toList) =
      [(.closed, ⟨.word, "x".toList⟩), (.space, ⟨.punctuation, "=".toList⟩)] ++
        (.space, ⟨.literal, "/a/g".toList⟩) :: (.line, ⟨.word, "y".toList⟩) :: [] := by
    decide +kernel
  exact ⟨htokens, minify_line_break_iff htokens rfl rfl⟩

/-- The line break before two signs is lost. -/
theorem minify_line_break_lost_of_signs :
    gapped .closed (pieces "a\n++b".toList) =
        [(.closed, ⟨.word, "a".toList⟩), (.line, ⟨.punctuation, "+".toList⟩),
          (.closed, ⟨.punctuation, "+".toList⟩), (.closed, ⟨.word, "b".toList⟩)] ∧
      minify "a\n++b".toList = "a++b".toList := by
  decide +kernel

end Stencil.Script
