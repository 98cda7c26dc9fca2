import Stencil.Proofs.Directive.Lexing
import Stencil.Proofs.Directive.Opener

/-!
# Openers in written expressions

Writing an expression drops the sigils of its names.  An opener of a host tag in what is written
stood in the expression, or it is the opener of a statement and a sigil that stood inside it was
dropped.
-/

namespace Stencil.Directive

open Stencil.Text

/-- The openers with sigils inside that are dropped when they are written. -/
def hiddenOpeners : List (List Char) :=
  [['<', '?', '$', 'p', 'y'], ['<', '?', 'p', '$', 'y'], ['<', '?', '$', 'p', '$', 'y']]

/-- A hidden opener stands outside of the literals of an expression. -/
def HidesOpener (expression : List Char) : Prop :=
  ∃ hidden ∈ hiddenOpeners, OccursOutside hidden expression

theorem HidesOpener.plain_append
    {text rest : List Char} (htext : ∀ c ∈ text, isQuote c = false) (hrest : HidesOpener rest) :
    HidesOpener (text ++ rest) := by
  obtain ⟨hidden, hmem, hoccurs⟩ := hrest
  exact ⟨hidden, hmem, hoccurs.plain_append htext⟩

theorem HidesOpener.cons
    {c : Char} {rest : List Char} (hc : isQuote c = false) (hrest : HidesOpener rest) :
    HidesOpener (c :: rest) := by
  obtain ⟨hidden, hmem, hoccurs⟩ := hrest
  exact ⟨hidden, hmem, hoccurs.cons hc⟩

theorem HidesOpener.literal
    {quote : Char} {inside rest : List Char} (hquote : isQuote quote = true)
    (hinside : LiteralInside quote inside) (hrest : HidesOpener rest) :
    HidesOpener (quote :: (inside ++ quote :: rest)) := by
  obtain ⟨hidden, hmem, hoccurs⟩ := hrest
  exact ⟨hidden, hmem, hoccurs.literal hquote hinside⟩

/-! ## What is written for one lexeme -/

theorem writeFrom_char
    {c : Char} (hblank : c ≠ ' ') (hbrackets : c ≠ '(' ∧ c ≠ '[') (before : Before)
    (later : List Lexeme) :
    writeFrom before (.char c :: later) = c :: writeFrom .other later := by
  simp [writeFrom, hblank, hbrackets]

theorem exists_writeFrom_word (operator : WordOperator) (blanks : List Char) (before : Before)
    (later : List Lexeme) :
    ∃ tail,
      writeFrom before (.word operator blanks :: later) =
          (before.gap ++ tail) ++ writeFrom .other later ∧
        '<' ∉ tail := by
  refine ⟨operator.word ++ if startsWithWord later then [] else [' '], ?_, ?_⟩
  · simp only [writeFrom, List.append_assoc]
  · cases operator <;> cases startsWithWord later <;> decide

/-- What is written for a symbol is its character, or it holds no bracket. -/
theorem symbolLexeme_char_or_plain (c : Char) (rest : List Char) :
    symbolLexeme c rest = (.char c, rest) ∨
      ∀ before later,
        ∃ head,
          writeFrom before ((symbolLexeme c rest).1 :: later) = head ++ writeFrom .other later ∧
            '<' ∉ head ∧
              (before = .other →
                ∃ d tail, head = d :: tail ∧ (continuesOpener d = true → d = '=' ∧ c = '=')) := by
  have hword (operator : WordOperator) (text : List Char) (before : Before)
      (later : List Lexeme) :
      ∃ head,
        writeFrom before ((wordLexeme operator text).1 :: later) =
            head ++ writeFrom .other later ∧
          '<' ∉ head ∧
            (before = .other →
              ∃ d tail, head = d :: tail ∧ (continuesOpener d = true → d = '=' ∧ c = '=')) := by
    obtain ⟨tail, hwritten, hplain⟩ :=
      exists_writeFrom_word operator (text.takeWhile isBlank) before later
    refine ⟨before.gap ++ tail, hwritten, ?_, ?_⟩
    · intro hbracket
      rcases List.mem_append.mp hbracket with hgap | htail
      · cases before <;> simp_all [Before.gap]
      · exact hplain htail
    · rintro rfl
      exact ⟨' ', tail, rfl, fun hblank => absurd hblank (by decide)⟩
  unfold symbolLexeme
  split
  next => exact .inr fun _ _ => ⟨['=', '='], rfl, by decide, fun _ => ⟨'=', ['='], rfl, by decide⟩⟩
  next => exact .inr fun _ _ => ⟨['!', '='], rfl, by decide, fun _ => ⟨'!', ['='], rfl, by decide⟩⟩
  next => exact .inr fun _ _ => ⟨['.'], rfl, by decide, fun _ => ⟨'.', [], rfl, by decide⟩⟩
  next => exact .inr fun before later => hword .both _ before later
  next => exact .inr fun before later => hword .either _ before later
  next => exact .inl rfl
  next => exact .inr fun before later => hword .negation _ before later
  next => exact .inl rfl

theorem exists_writeFrom_cons (before : Before) (lexeme : Lexeme) (later : List Lexeme) :
    ∃ head next, writeFrom before (lexeme :: later) = head ++ writeFrom next later := by
  cases lexeme with
  | quoted text => exact ⟨text, .other, rfl⟩
  | sigil => exact ⟨[], before, rfl⟩
  | identical => exact ⟨['=', '='], .other, rfl⟩
  | notIdentical => exact ⟨['!', '='], .other, rfl⟩
  | arrow => exact ⟨['.'], .other, rfl⟩
  | word operator blanks =>
      obtain ⟨tail, hwritten, _⟩ := exists_writeFrom_word operator blanks before later
      exact ⟨before.gap ++ tail, .other, hwritten⟩
  | char c =>
      rw [writeFrom]
      split
      · exact ⟨[], .other, rfl⟩
      · exact ⟨[c], _, rfl⟩

theorem exists_writeFrom_append (before : Before) (earlier later : List Lexeme) :
    ∃ written next, writeFrom before (earlier ++ later) = written ++ writeFrom next later := by
  induction earlier generalizing before with
  | nil => exact ⟨[], before, rfl⟩
  | cons lexeme earlier ih =>
      obtain ⟨head, next, hhead⟩ := exists_writeFrom_cons before lexeme (earlier ++ later)
      obtain ⟨written, last, hwritten⟩ := ih next
      refine ⟨head ++ written, last, ?_⟩
      rw [List.cons_append, hhead, hwritten, List.append_assoc]

/-! ## Openers that are written -/

theorem continuesOpener_eq_false_of_isQuote {c : Char} (hquote : isQuote c = true) :
    continuesOpener c = false := by
  simp only [isQuote, Bool.or_eq_true, beq_iff_eq] at hquote
  rcases hquote with rfl | rfl <;> rfl

theorem head_writeFrom_of_startsWithWord {later : List Lexeme} (hword : startsWithWord later) :
    ∃ tail, writeFrom .other later = ' ' :: tail := by
  unfold startsWithWord at hword
  split at hword
  next operator blanks rest =>
    obtain ⟨tail, hwritten, _⟩ := exists_writeFrom_word operator blanks .other rest
    exact ⟨_, hwritten⟩
  next => contradiction

/-- A character of an opener that is written for a symbol is the symbol, or both are the sign of
equality. -/
theorem of_writeFrom_symbol_eq_cons
    {c d : Char} {rest written : List Char} {later : List Lexeme}
    (hwritten : writeFrom .other ((symbolLexeme c rest).1 :: later) = d :: written)
    (hd : continuesOpener d = true) :
    (d = '=' ∧ c = '=') ∨
      (d = c ∧ (symbolLexeme c rest).2 = rest ∧ written = writeFrom .other later) := by
  rcases symbolLexeme_char_or_plain c rest with hchar | hplain
  · rw [hchar] at hwritten ⊢
    rw [writeFrom] at hwritten
    split at hwritten
    next hword =>
      rw [Bool.and_eq_true] at hword
      obtain ⟨tail, htail⟩ := head_writeFrom_of_startsWithWord hword.2
      rw [htail] at hwritten
      obtain ⟨rfl, _⟩ := List.cons.inj hwritten
      contradiction
    next =>
      obtain ⟨rfl, hrest⟩ := List.cons.inj hwritten
      have hbracket : ¬(c == '(' || c == '[') = true := by
        intro hbracket
        simp only [Bool.or_eq_true, beq_iff_eq] at hbracket
        rcases hbracket with rfl | rfl <;> contradiction
      rw [if_neg hbracket] at hrest
      exact .inr ⟨rfl, rfl, hrest.symm⟩
  · obtain ⟨head, hhead, _, hfirst⟩ := hplain .other later
    obtain ⟨e, tail, rfl, he⟩ := hfirst rfl
    rw [hwritten, List.cons_append] at hhead
    obtain ⟨rfl, _⟩ := List.cons.inj hhead
    exact .inl (he hd)

/-- A character of an opener is written for itself, or a sigil in front of it is dropped. -/
theorem exists_of_writeFrom_eq_cons
    {expression written : List Char} {found : List Lexeme} {d : Char}
    (hfound : lexemes expression = .ok found) (hwritten : writeFrom .other found = d :: written)
    (hd : continuesOpener d = true) :
    (d = '=' ∧ ∃ rest, expression = '=' :: rest) ∨
      ∃ rest later,
        lexemes rest = .ok later ∧ written = writeFrom .other later ∧
          (expression = d :: rest ∨ (isLetter d = true ∧ expression = '$' :: d :: rest)) := by
  rw [lexemes_eq_ok_iff] at hfound
  induction hfound with
  | nil => contradiction
  | literal hquote | unclosed hquote =>
      obtain ⟨rfl, _⟩ := List.cons.inj hwritten
      rw [continuesOpener_eq_false_of_isQuote hquote] at hd
      contradiction
  | @sigil c rest later hletter _ ih =>
      rcases ih hwritten with ⟨rfl, after, hafter⟩ | ⟨after, behind, hbehind, hrest, hafter⟩
      · obtain ⟨rfl, rfl⟩ := List.cons.inj hafter
        contradiction
      · rcases hafter with hafter | ⟨_, hafter⟩
        · obtain ⟨rfl, rfl⟩ := List.cons.inj hafter
          exact .inr ⟨rest, behind, hbehind, hrest, .inr ⟨hletter, rfl⟩⟩
        · obtain ⟨rfl, _⟩ := List.cons.inj hafter
          contradiction
  | @symbol c rest later _ _ hlater _ =>
      rcases of_writeFrom_symbol_eq_cons hwritten hd with ⟨rfl, rfl⟩ | ⟨rfl, hsame, hrest⟩
      · exact .inl ⟨rfl, rest, rfl⟩
      · rw [hsame] at hlater
        exact .inr ⟨rest, later, hlater.lexemes_eq, hrest, .inl rfl⟩

theorem hidesOpener_append
    (hidden after : List Char) (hhidden : hidden ∈ hiddenOpeners) :
    HidesOpener (hidden ++ after) :=
  ⟨hidden, hhidden, occursOutside_append hidden after⟩

theorem exists_of_writeFrom_eq_letter
    {expression written : List Char} {found : List Lexeme} {d : Char}
    (hfound : lexemes expression = .ok found) (hwritten : writeFrom .other found = d :: written)
    (hd : continuesOpener d = true) (hequal : d ≠ '=') :
    ∃ rest later,
      lexemes rest = .ok later ∧ written = writeFrom .other later ∧
        (expression = d :: rest ∨ expression = '$' :: d :: rest) := by
  rcases exists_of_writeFrom_eq_cons hfound hwritten hd with
    ⟨rfl, _⟩ | ⟨rest, later, hlater, hrest, hexpression⟩
  · contradiction
  · exact ⟨rest, later, hlater, hrest, hexpression.imp_right And.right⟩

theorem exists_of_writeFrom_eq_mark
    {expression written : List Char} {found : List Lexeme} {d : Char}
    (hfound : lexemes expression = .ok found) (hwritten : writeFrom .other found = d :: written)
    (hd : continuesOpener d = true) (hletter : isLetter d = false) :
    ∃ rest,
      expression = d :: rest ∧
        (d = '=' ∨ ∃ later, lexemes rest = .ok later ∧ written = writeFrom .other later) := by
  rcases exists_of_writeFrom_eq_cons hfound hwritten hd with
    ⟨rfl, rest, hrest⟩ | ⟨rest, later, hlater, hrest, hexpression | ⟨hname, _⟩⟩
  · exact ⟨rest, hrest, .inl rfl⟩
  · exact ⟨rest, hexpression, .inr ⟨later, hlater, hrest⟩⟩
  · rw [hletter] at hname
    contradiction

theorem opens_or_hides_statement
    {expression written : List Char} {found : List Lexeme}
    (hfound : lexemes expression = .ok found)
    (hwritten : writeFrom .other found = 'p' :: 'y' :: written) :
    opensHostTag ('<' :: '?' :: expression) = true ∨ HidesOpener ('<' :: '?' :: expression) := by
  obtain ⟨rest, later, hlater, hrest, hexpression⟩ :=
    exists_of_writeFrom_eq_letter hfound hwritten rfl (by decide)
  obtain ⟨after, _, _, _, hafter⟩ :=
    exists_of_writeFrom_eq_letter hlater hrest.symm rfl (by decide)
  rcases hexpression with rfl | rfl
  · rcases hafter with rfl | rfl
    · exact .inl rfl
    · exact .inr (hidesOpener_append ['<', '?', 'p', '$', 'y'] after (by decide))
  · rcases hafter with rfl | rfl
    · exact .inr (hidesOpener_append ['<', '?', '$', 'p', 'y'] after (by decide))
    · exact .inr (hidesOpener_append ['<', '?', '$', 'p', '$', 'y'] after (by decide))

/-- An opener that is written stood in the expression, or it was hidden there. -/
theorem opens_or_hides
    {expression : List Char} {found : List Lexeme} (hfound : lexemes expression = .ok found)
    (hopens : opensHostTag ('<' :: writeFrom .other found) = true) :
    opensHostTag ('<' :: expression) = true ∨ HidesOpener ('<' :: expression) := by
  obtain ⟨mark, hwritten⟩ : ∃ mark, writeFrom .other found = '?' :: mark := by
    obtain ⟨rest, hopener | hopener | hopener⟩ := exists_of_opensHostTag hopens
    all_goals exact ⟨_, (List.cons.inj hopener).2⟩
  obtain ⟨rest, rfl, hequal | ⟨later, hlater, hmark⟩⟩ :=
    exists_of_writeFrom_eq_mark hfound hwritten rfl (by decide)
  · contradiction
  · rw [hwritten, hmark] at hopens
    obtain ⟨after, hopener | hopener | hopener⟩ := exists_of_opensHostTag hopens
    all_goals rw [List.cons.injEq, List.cons.injEq] at hopener
    · exact opens_or_hides_statement hlater hopener.2.2
    · obtain ⟨behind, rfl, _⟩ := exists_of_writeFrom_eq_mark hlater hopener.2.2 rfl (by decide)
      exact .inl rfl
    · obtain ⟨behind, rfl, _⟩ := exists_of_writeFrom_eq_mark hlater hopener.2.2 rfl (by decide)
      exact .inl rfl

/-- An expression holds no opener, and none would come to light in it. -/
structure OpensNothing (expression : List Char) : Prop where
  count : openerCount expression = 0
  hides : ¬HidesOpener expression

theorem OpensNothing.tail
    {c : Char} {rest : List Char} (hc : isQuote c = false) (hopens : OpensNothing (c :: rest)) :
    OpensNothing rest where
  count := openerCount_eq_zero_of_isInfix (List.suffix_cons c rest).isInfix hopens.count
  hides := fun hrest => hopens.hides (hrest.cons hc)

theorem OpensNothing.symbolLexeme
    {c : Char} {rest : List Char} (hc : isQuote c = false) (hopens : OpensNothing (c :: rest)) :
    OpensNothing (symbolLexeme c rest).2 := by
  obtain ⟨source, _, hsource, hplain⟩ := exists_source_symbolLexeme c rest
  have hsuffix : (Directive.symbolLexeme c rest).2 <:+ rest := ⟨source, hsource.symm⟩
  refine ⟨openerCount_eq_zero_of_isInfix hsuffix.isInfix (hopens.tail hc).count, fun hlater => ?_⟩
  apply (hopens.tail hc).hides
  rw [hsource]
  exact hlater.plain_append hplain

theorem openerCount_literal
    {quote : Char} (hquote : isQuote quote = true) (inside text : List Char) :
    openerCount (quote :: (inside ++ quote :: text)) = openerCount inside + openerCount text := by
  have hbracket : quote ≠ '<' := by
    rintro rfl
    contradiction
  rw [openerCount_cons_of_ne hbracket,
    openerCount_append_cons (continuesOpener_eq_false_of_isQuote hquote),
    openerCount_cons_of_ne hbracket]

/-- An opener that begins with a bracket of the expression goes on in what is written for the
rest. -/
theorem OpensNothing.opensHostTag_writeFrom
    {rest : List Char} {later : List Lexeme} (hopens : OpensNothing ('<' :: rest))
    (hlater : lexemes rest = .ok later) : opensHostTag ('<' :: writeFrom .other later) = false := by
  rw [Bool.eq_false_iff]
  intro hwritten
  rcases opens_or_hides hlater hwritten with hshown | hhidden
  · have hcount := hopens.count
    simp [openerCount, hshown] at hcount
  · exact hopens.hides hhidden

/-- Without hidden openers, nothing that is written is an opener. -/
theorem OpensNothing.openerCount_writeFrom
    {expression : List Char} {found : List Lexeme} (hopens : OpensNothing expression)
    (before : Before) (hfound : lexemes expression = .ok found) :
    openerCount (writeFrom before found) = 0 := by
  rw [lexemes_eq_ok_iff] at hfound
  induction hfound generalizing before with
  | nil => rfl
  | @literal quote inside rest later hquote hinside _ ih =>
      have hcount := hopens.count
      rw [openerCount_literal hquote, Nat.add_eq_zero_iff] at hcount
      have hrest : OpensNothing rest :=
        ⟨hcount.2, fun hrest => hopens.hides (hrest.literal hquote hinside)⟩
      rw [writeFrom, List.cons_append, List.append_assoc, List.cons_append, List.nil_append,
        openerCount_literal hquote, hcount.1, ih hrest .other]
  | unclosed =>
      rw [writeFrom, writeFrom, List.append_nil]
      exact hopens.count
  | sigil _ _ ih =>
      rw [writeFrom]
      exact ih (hopens.tail (by decide)) before
  | @symbol c rest later hquote _ hlater ih =>
      have hwritten := ih (hopens.symbolLexeme hquote)
      rcases symbolLexeme_char_or_plain c rest with hchar | hplain
      · rw [hchar] at hlater ⊢
        rw [writeFrom]
        split
        · exact hwritten .other
        · by_cases hc : c = '<'
          · subst hc
            have hother : ¬('<' == '(' || '<' == '[') = true := by decide
            rw [if_neg hother, openerCount, hopens.opensHostTag_writeFrom hlater.lexemes_eq,
              hwritten .other]
            rfl
          · rw [openerCount_cons_of_ne hc, hwritten]
      · obtain ⟨head, hhead, hbrackets, _⟩ := hplain before later
        rw [hhead, openerCount_plain_append hbrackets]
        exact hwritten .other

/-! ## Hidden openers are written -/

/-- A character that is always written for itself. -/
def isPlainChar (c : Char) : Bool :=
  !isQuote c && ['$', '=', '!', '-', '&', '|', ' ', '(', '['].all (· != c)

theorem exists_written_plain
    {c : Char} {rest : List Char} {found : List Lexeme} (hc : isPlainChar c = true)
    (hfound : lexemes (c :: rest) = .ok found) (before : Before) :
    ∃ later, lexemes rest = .ok later ∧ writeFrom before found = c :: writeFrom .other later := by
  simp only [isPlainChar, Bool.and_eq_true, Bool.not_eq_true', List.all_cons, List.all_nil,
    bne_iff_ne, ne_eq, @eq_comm _ _ c, and_true] at hc
  obtain ⟨hquote, hsigil, hequal, hnot, hminus, hand, hor, hblank, hround, hsquare⟩ := hc
  have hsymbol : symbolLexeme c rest = (.char c, rest) := by
    simp [symbolLexeme_eq, hequal, hnot, hminus, hand, hor]
  rw [lexemes_symbol hquote (by simp [isSigil, hsigil]), hsymbol, bind_ok_eq_ok_iff] at hfound
  obtain ⟨later, hlater, rfl⟩ := hfound
  exact ⟨later, hlater, writeFrom_char hblank ⟨hround, hsquare⟩ before later⟩

theorem exists_written_letter
    {c : Char} {expression rest : List Char} {found : List Lexeme}
    (hletter : isLetter c = true) (hc : isPlainChar c = true)
    (hexpression : expression = c :: rest ∨ expression = '$' :: c :: rest)
    (hfound : lexemes expression = .ok found) (before : Before) :
    ∃ later, lexemes rest = .ok later ∧ writeFrom before found = c :: writeFrom .other later := by
  rcases hexpression with rfl | rfl
  · exact exists_written_plain hc hfound before
  · rw [lexemes_sigil hletter, bind_ok_eq_ok_iff] at hfound
    obtain ⟨named, hnamed, rfl⟩ := hfound
    exact exists_written_plain hc hnamed before

theorem exists_of_mem_hiddenOpeners
    {hidden : List Char} (hhidden : hidden ∈ hiddenOpeners) (after : List Char) :
    ∃ word letter,
      hidden ++ after = '<' :: '?' :: word ∧ (word = 'p' :: letter ∨ word = '$' :: 'p' :: letter) ∧
        (letter = 'y' :: after ∨ letter = '$' :: 'y' :: after) := by
  simp only [hiddenOpeners, List.mem_cons, List.not_mem_nil, or_false] at hhidden
  rcases hhidden with rfl | rfl | rfl
  · exact ⟨_, _, rfl, .inr rfl, .inl rfl⟩
  · exact ⟨_, _, rfl, .inl rfl, .inr rfl⟩
  · exact ⟨_, _, rfl, .inr rfl, .inr rfl⟩

theorem opensHostTag_writeFrom_hidden
    {hidden after : List Char} {found : List Lexeme} (hhidden : hidden ∈ hiddenOpeners)
    (hfound : lexemes (hidden ++ after) = .ok found) (before : Before) :
    opensHostTag (writeFrom before found) = true := by
  obtain ⟨word, letter, htext, hword, hletter⟩ := exists_of_mem_hiddenOpeners hhidden after
  rw [htext] at hfound
  obtain ⟨marked, hmarked, hbracket⟩ := exists_written_plain (by decide) hfound before
  obtain ⟨named, hnamed, hmark⟩ := exists_written_plain (by decide) hmarked .other
  obtain ⟨second, hsecond, hp⟩ := exists_written_letter (by decide) (by decide) hword hnamed .other
  obtain ⟨_, _, hy⟩ := exists_written_letter (by decide) (by decide) hletter hsecond .other
  rw [hbracket, hmark, hp, hy]
  rfl

theorem openerCount_writeFrom_ne_zero
    {expression : List Char} {found : List Lexeme} (before : Before)
    (hfound : lexemes expression = .ok found) (hhides : HidesOpener expression) :
    openerCount (writeFrom before found) ≠ 0 := by
  obtain ⟨hidden, hhidden, passed, after, rfl, hpassed⟩ := hhides
  obtain ⟨word, _, hbracket, _⟩ := exists_of_mem_hiddenOpeners hhidden after
  rw [List.append_assoc, hbracket, lexemes_append hpassed (by decide), bind_eq_ok_iff] at hfound
  obtain ⟨earlier, _, hfound⟩ := hfound
  obtain ⟨later, hlater, rfl⟩ := bind_ok_eq_ok_iff.mp hfound
  obtain ⟨written, next, hwritten⟩ := exists_writeFrom_append before earlier later
  rw [← hbracket] at hlater
  have hopens := opensHostTag_writeFrom_hidden hhidden hlater next
  intro hcount
  rw [openerCount_eq_zero_iff] at hcount
  have hnot := hcount (writeFrom next later) ⟨written, hwritten.symm⟩
  rw [hopens] at hnot
  contradiction

/-- An expression without openers is written without openers, unless it hides one. -/
theorem openerCount_hostExpression_eq_zero_iff
    {expression written : List Char} (hexpression : openerCount expression = 0)
    (hwritten : hostExpression expression = .ok written) :
    openerCount written = 0 ↔ ¬HidesOpener expression := by
  unfold hostExpression at hwritten
  cases hfound : lexemes expression with
  | error name =>
      rw [hfound] at hwritten
      contradiction
  | ok found =>
      rw [hfound] at hwritten
      obtain rfl : trim (writeFrom .nothing found) = written := Except.ok.inj hwritten
      rw [openerCount_trim]
      constructor
      · intro hcount hhides
        exact openerCount_writeFrom_ne_zero .nothing hfound hhides hcount
      · intro hhides
        exact OpensNothing.openerCount_writeFrom ⟨hexpression, hhides⟩ .nothing hfound

end Stencil.Directive
