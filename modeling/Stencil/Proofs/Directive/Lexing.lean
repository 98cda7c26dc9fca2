import Stencil.Proofs.Directive.Literal
import Stencil.Proofs.Except
import Stencil.Proofs.Text.Blank

/-!
# Reading the lexemes of an expression

The lexemes of an expression are its text, cut into parts.  A symbol looks only at the few
characters that can continue it, so an expression can be cut in front of any other character.  An
expression is refused exactly for a private variable outside of its literals.
-/

namespace Stencil.Directive

open Stencil.Text

/-- A character that can stand in a symbol behind its first character. -/
def continuesSymbol (c : Char) : Bool :=
  c == '=' || c == '>' || c == '&' || c == '|' || isBlank c

theorem isQuote_eq_false_of_isBlank {c : Char} (hblank : isBlank c) : isQuote c = false := by
  rw [Bool.eq_false_iff]
  intro hquote
  simp only [isQuote, Bool.or_eq_true, beq_iff_eq] at hquote
  rcases hquote with rfl | rfl <;> contradiction

theorem continuesSymbol_of_isBlank {c : Char} (hblank : isBlank c) : continuesSymbol c = true := by
  simp [continuesSymbol, hblank]

/-- A symbol is a part of the text, with no quote behind its first character. -/
theorem exists_source_symbolLexeme (c : Char) (rest : List Char) :
    ∃ tail,
      (symbolLexeme c rest).1.source = c :: tail ∧ rest = tail ++ (symbolLexeme c rest).2 ∧
        ∀ d ∈ tail, isQuote d = false := by
  have hblanks (text : List Char) : ∀ d ∈ text.takeWhile isBlank, isQuote d = false :=
    fun d hd => isQuote_eq_false_of_isBlank (List.mem_takeWhile_imp hd)
  unfold symbolLexeme
  split
  next rest => exact ⟨['=', '='], rfl, rfl, by simp [isQuote]⟩
  next rest => exact ⟨['=', '='], rfl, rfl, by simp [isQuote]⟩
  next rest => exact ⟨['>'], rfl, rfl, by simp [isQuote]⟩
  next rest =>
    refine ⟨'&' :: rest.takeWhile isBlank, rfl, ?_, ?_⟩
    · simp [wordLexeme]
    · simpa [isQuote] using hblanks rest
  next rest =>
    refine ⟨'|' :: rest.takeWhile isBlank, rfl, ?_, ?_⟩
    · simp [wordLexeme]
    · simpa [isQuote] using hblanks rest
  next => exact ⟨[], rfl, rfl, by simp⟩
  next =>
    refine ⟨rest.takeWhile isBlank, rfl, ?_, hblanks rest⟩
    simp [wordLexeme]
  next => exact ⟨[], rfl, rfl, by simp⟩

theorem takeWhile_append_cons
    {keep : Char → Bool} {d : Char} (hd : keep d = false) (text after : List Char) :
    (text ++ d :: after).takeWhile keep = text.takeWhile keep := by
  induction text with
  | nil => simp [hd]
  | cons c rest ih => rw [List.cons_append, List.takeWhile_cons, List.takeWhile_cons, ih]

theorem dropWhile_append_cons
    {skip : Char → Bool} {d : Char} (hd : skip d = false) (text after : List Char) :
    (text ++ d :: after).dropWhile skip = text.dropWhile skip ++ d :: after := by
  induction text with
  | nil => simp [hd]
  | cons c rest ih =>
      rw [List.cons_append, List.dropWhile_cons, List.dropWhile_cons, ih]
      split <;> rfl

theorem wordLexeme_append
    (operator : WordOperator) (rest after : List Char) {d : Char} (hd : continuesSymbol d = false) :
    wordLexeme operator (rest ++ d :: after) =
      ((wordLexeme operator rest).1, (wordLexeme operator rest).2 ++ d :: after) := by
  have hblank : isBlank d = false := by
    rw [Bool.eq_false_iff]
    intro hblank
    rw [continuesSymbol_of_isBlank hblank] at hd
    contradiction
  rw [wordLexeme, takeWhile_append_cons hblank, dropWhile_append_cons hblank]
  rfl

theorem symbolLexeme_eq (c : Char) (rest : List Char) :
    symbolLexeme c rest =
      if c = '=' ∧ rest.take 2 = ['=', '='] then (.identical, rest.drop 2)
      else if c = '!' ∧ rest.take 2 = ['=', '='] then (.notIdentical, rest.drop 2)
      else if c = '-' ∧ rest.take 1 = ['>'] then (.arrow, rest.drop 1)
      else if c = '&' ∧ rest.take 1 = ['&'] then wordLexeme .both (rest.drop 1)
      else if c = '|' ∧ rest.take 1 = ['|'] then wordLexeme .either (rest.drop 1)
      else if c = '!' ∧ rest.take 1 = ['='] then (.char c, rest)
      else if c = '!' then wordLexeme .negation rest
      else (.char c, rest) := by
  unfold symbolLexeme
  rcases rest with _ | ⟨x, _ | ⟨y, rest⟩⟩
  · split <;> simp_all
  · split <;> simp_all
    grind
  · split <;> simp_all <;> grind

/-- How a symbol is read at the beginning of a text: the text, the lexeme and what follows it. -/
inductive SymbolForm : List Char → Lexeme → List Char → Prop where
  | identical (rest : List Char) : SymbolForm ('=' :: '=' :: '=' :: rest) .identical rest
  | notIdentical (rest : List Char) : SymbolForm ('!' :: '=' :: '=' :: rest) .notIdentical rest
  | arrow (rest : List Char) : SymbolForm ('-' :: '>' :: rest) .arrow rest
  | word (operator : WordOperator) {gap rest : List Char}
      (hgap : AllBlank gap) (hrest : NoBlankFirst rest)
      (hequal : operator = .negation → ∀ later, gap ++ rest ≠ '=' :: later) :
      SymbolForm (operator.symbol ++ (gap ++ rest)) (.word operator gap) rest
  | char {c : Char} {rest : List Char}
      (hidentical : ∀ later, c = '=' → rest ≠ '=' :: '=' :: later)
      (hnotIdentical : ∀ later, c = '!' → rest ≠ '=' :: '=' :: later)
      (harrow : ∀ later, c = '-' → rest ≠ '>' :: later)
      (hboth : ∀ later, c = '&' → rest ≠ '&' :: later)
      (heither : ∀ later, c = '|' → rest ≠ '|' :: later)
      (hequal : c = '!' → ∃ later, rest = '=' :: later) : SymbolForm (c :: rest) (.char c) rest

theorem symbolForm_word
    (operator : WordOperator) {rest : List Char}
    (hequal : operator = .negation → ∀ later, rest ≠ '=' :: later) :
    SymbolForm (operator.symbol ++ rest) (wordLexeme operator rest).1
      (wordLexeme operator rest).2 := by
  have hsplit : rest.takeWhile isBlank ++ skipBlanks rest = rest :=
    List.takeWhile_append_dropWhile
  rw [← hsplit] at hequal
  have hform := SymbolForm.word operator (fun _ hc => List.mem_takeWhile_imp hc)
    (noBlankFirst_skipBlanks rest) hequal
  rwa [hsplit] at hform

theorem symbolForm_symbolLexeme (c : Char) (rest : List Char) :
    SymbolForm (c :: rest) (symbolLexeme c rest).1 (symbolLexeme c rest).2 := by
  unfold symbolLexeme
  split
  next rest => exact .identical rest
  next rest => exact .notIdentical rest
  next rest => exact .arrow rest
  next rest => exact symbolForm_word .both (by simp)
  next rest => exact symbolForm_word .either (by simp)
  next rest hnotIdentical =>
    refine .char (by simp) ?_ (by simp) (by simp) (by simp) (fun _ => ⟨rest, rfl⟩)
    rintro later - hrest
    exact hnotIdentical later (List.cons.inj hrest).2
  next rest _ hequal => exact symbolForm_word .negation fun _ => hequal
  next hnegation hidentical hnotIdentical harrow hboth heither _ =>
    exact .char hidentical hnotIdentical harrow hboth heither fun hc => absurd hc hnegation

/-- What a symbol does not look at stays as it is. -/
theorem symbolLexeme_append
    (c : Char) (rest after : List Char) {d : Char} (hd : continuesSymbol d = false) :
    symbolLexeme c (rest ++ d :: after) =
      ((symbolLexeme c rest).1, (symbolLexeme c rest).2 ++ d :: after) := by
  have hne : d ≠ '=' ∧ d ≠ '>' ∧ d ≠ '&' ∧ d ≠ '|' := by
    refine ⟨?_, ?_, ?_, ?_⟩ <;> rintro rfl <;> contradiction
  have hword := fun operator text => wordLexeme_append operator text after hd
  simp only [symbolLexeme_eq]
  rcases rest with _ | ⟨x, _ | ⟨y, rest⟩⟩
  · simp only [List.nil_append, List.take_succ_cons, List.take_nil, List.take_zero, List.cons.injEq,
      hne, false_and, and_false, reduceCtorEq, if_false]
    split_ifs
    exacts [hword .negation [], rfl]
  · simp only [List.cons_append, List.nil_append, List.take_succ_cons, List.take_nil,
      List.take_zero, List.drop_succ_cons, List.drop_zero, List.cons.injEq, hne, reduceCtorEq,
      false_and, and_false, if_false]
    split_ifs
    exacts [rfl, hword .both [], hword .either [], rfl, hword .negation [x], rfl]
  · simp only [List.cons_append, List.take_succ_cons, List.take_zero, List.drop_succ_cons,
      List.drop_zero, List.cons.injEq, and_true]
    split_ifs
    exacts [rfl, rfl, rfl, hword .both (y :: rest), hword .either (y :: rest), rfl,
      hword .negation (x :: y :: rest), rfl]

/-! ## One lexeme at a time -/

theorem lexemes_quote {quote : Char} (hquote : isQuote quote = true) (rest : List Char) :
    lexemes (quote :: rest) =
      lexemes (rest.drop (stringWidth quote rest)) >>= fun later =>
        .ok (.quoted (quote :: rest.take (stringWidth quote rest)) :: later) := by
  rw [isQuote] at hquote
  rw [lexemes, if_pos hquote]

theorem lexemes_private (rest : List Char) :
    lexemes ('$' :: '_' :: rest) = .error (('_' :: rest).takeWhile isWord) := by
  rw [lexemes]
  rfl

theorem ne_underscore_of_isLetter {c : Char} (hletter : isLetter c) : c ≠ '_' := by
  rintro rfl
  contradiction

theorem lexemes_sigil {c : Char} (hletter : isLetter c) (rest : List Char) :
    lexemes ('$' :: c :: rest) =
      lexemes (c :: rest) >>= fun later => .ok (.sigil :: later) := by
  rw [lexemes, if_neg (by decide), if_neg (by simp [ne_underscore_of_isLetter hletter]),
    if_pos (by simp [hletter])]

/-- The character is a sigil in front of a name. -/
def isSigil (c : Char) (rest : List Char) : Bool :=
  c == '$' && rest.head?.any fun d => d == '_' || isLetter d

theorem lexemes_symbol
    {c : Char} {rest : List Char} (hquote : isQuote c = false) (hsigil : isSigil c rest = false) :
    lexemes (c :: rest) =
      lexemes (symbolLexeme c rest).2 >>= fun later =>
        .ok ((symbolLexeme c rest).1 :: later) := by
  have hquote' : ¬(c == '"' || c == '\'') = true := by
    rw [← isQuote, hquote]
    decide
  have hprivate : ¬(c == '$' && rest.head?.any (· == '_')) = true := by
    cases rest <;> simp_all [isSigil]
  have hname : ¬(c == '$' && rest.head?.any isLetter) = true := by
    cases rest <;> simp_all [isSigil]
  rw [lexemes, if_neg hquote', if_neg hprivate, if_neg hname]

theorem lexemes_literal
    {quote : Char} {inside : List Char} (hquote : isQuote quote = true)
    (hinside : LiteralInside quote inside) (rest : List Char) :
    lexemes (quote :: (inside ++ quote :: rest)) =
      lexemes rest >>= fun later => .ok (.quoted (quote :: (inside ++ [quote])) :: later) := by
  rw [lexemes_quote hquote, drop_stringWidth hquote hinside, take_stringWidth hquote hinside]

theorem lexemes_unclosed
    {quote : Char} {rest : List Char} (hquote : isQuote quote = true)
    (hunclosed : ∀ inside later, LiteralInside quote inside → rest ≠ inside ++ quote :: later) :
    lexemes (quote :: rest) = .ok [.quoted (quote :: rest)] := by
  rw [lexemes_quote hquote, stringWidth_of_unclosed hunclosed, List.drop_length, List.take_length,
    lexemes]
  rfl

/-- Induction along the lexemes of an expression. -/
@[elab_as_elim]
theorem lexemes_induction
    {motive : List Char → Prop} (nil : motive [])
    (literal : ∀ quote inside rest, isQuote quote = true → LiteralInside quote inside →
      motive rest → motive (quote :: (inside ++ quote :: rest)))
    (unclosed : ∀ quote rest, isQuote quote = true →
      (∀ inside later, LiteralInside quote inside → rest ≠ inside ++ quote :: later) →
      motive (quote :: rest))
    (hidden : ∀ rest, motive ('$' :: '_' :: rest))
    (sigil : ∀ c rest, isLetter c = true → motive (c :: rest) → motive ('$' :: c :: rest))
    (symbol : ∀ c rest, isQuote c = false → isSigil c rest = false →
      motive (symbolLexeme c rest).2 → motive (c :: rest))
    (expression : List Char) : motive expression := by
  induction hlength : expression.length using Nat.strong_induction_on generalizing expression with
  | _ length ih =>
      subst hlength
      cases expression with
      | nil => exact nil
      | cons c rest =>
          by_cases hquote : isQuote c = true
          · by_cases hclosed :
              ∃ inside later, LiteralInside c inside ∧ rest = inside ++ c :: later
            · obtain ⟨inside, later, hinside, rfl⟩ := hclosed
              exact literal c inside later hquote hinside
                (ih later.length (by simp; omega) later rfl)
            · exact unclosed c rest hquote fun inside later hinside hrest =>
                hclosed ⟨inside, later, hinside, hrest⟩
          · rw [Bool.not_eq_true] at hquote
            by_cases hsigil : isSigil c rest = true
            · cases rest with
              | nil => simp [isSigil] at hsigil
              | cons d after =>
                  simp only [isSigil, List.head?_cons, Option.any_some, Bool.and_eq_true,
                    beq_iff_eq, Bool.or_eq_true] at hsigil
                  obtain ⟨rfl, rfl | hletter⟩ := hsigil
                  · exact hidden after
                  · exact sigil d after hletter (ih _ (by simp) _ rfl)
            · rw [Bool.not_eq_true] at hsigil
              have hlength := Nat.lt_succ_of_le (length_symbolLexeme c rest)
              exact symbol c rest hquote hsigil (ih _ hlength _ rfl)

/-- The lexemes of an expression without private variables. -/
inductive Lexed : List Char → List Lexeme → Prop where
  | nil : Lexed [] []
  | literal {quote : Char} {inside rest : List Char} {later : List Lexeme}
      (hquote : isQuote quote = true) (hinside : LiteralInside quote inside)
      (hrest : Lexed rest later) :
      Lexed (quote :: (inside ++ quote :: rest)) (.quoted (quote :: (inside ++ [quote])) :: later)
  | unclosed {quote : Char} {rest : List Char} (hquote : isQuote quote = true)
      (hunclosed : ∀ inside later, LiteralInside quote inside → rest ≠ inside ++ quote :: later) :
      Lexed (quote :: rest) [.quoted (quote :: rest)]
  | sigil {c : Char} {rest : List Char} {later : List Lexeme} (hletter : isLetter c = true)
      (hrest : Lexed (c :: rest) later) : Lexed ('$' :: c :: rest) (.sigil :: later)
  | symbol {c : Char} {rest : List Char} {later : List Lexeme} (hquote : isQuote c = false)
      (hsigil : isSigil c rest = false) (hrest : Lexed (symbolLexeme c rest).2 later) :
      Lexed (c :: rest) ((symbolLexeme c rest).1 :: later)

theorem Lexed.lexemes_eq {expression : List Char} {found : List Lexeme}
    (hlexed : Lexed expression found) : lexemes expression = .ok found := by
  induction hlexed with
  | nil => rw [lexemes]
  | literal hquote hinside _ ih =>
      rw [lexemes_literal hquote hinside, ih]
      rfl
  | unclosed hquote hunclosed => exact lexemes_unclosed hquote hunclosed
  | sigil hletter _ ih =>
      rw [lexemes_sigil hletter, ih]
      rfl
  | symbol hquote hsigil _ ih =>
      rw [lexemes_symbol hquote hsigil, ih]
      rfl

theorem lexemes_eq_ok_iff {expression : List Char} {found : List Lexeme} :
    lexemes expression = .ok found ↔ Lexed expression found := by
  refine ⟨fun hfound => ?_, Lexed.lexemes_eq⟩
  induction expression using lexemes_induction generalizing found with
  | nil =>
      rw [lexemes, Except.ok.injEq] at hfound
      subst found
      exact .nil
  | literal quote inside rest hquote hinside ih =>
      rw [lexemes_literal hquote hinside, bind_ok_eq_ok_iff] at hfound
      obtain ⟨later, hlater, rfl⟩ := hfound
      exact .literal hquote hinside (ih hlater)
  | unclosed quote rest hquote hunclosed =>
      rw [lexemes_unclosed hquote hunclosed, Except.ok.injEq] at hfound
      subst found
      exact .unclosed hquote hunclosed
  | hidden rest =>
      rw [lexemes_private] at hfound
      contradiction
  | sigil c rest hletter ih =>
      rw [lexemes_sigil hletter, bind_ok_eq_ok_iff] at hfound
      obtain ⟨later, hlater, rfl⟩ := hfound
      exact .sigil hletter (ih hlater)
  | symbol c rest hquote hsigil ih =>
      rw [lexemes_symbol hquote hsigil, bind_ok_eq_ok_iff] at hfound
      obtain ⟨later, hlater, rfl⟩ := hfound
      exact .symbol hquote hsigil (ih hlater)

/-! ## Cutting an expression -/

/-- A character that begins a lexeme wherever it stands outside of literals. -/
def beginsLexeme (c : Char) : Bool :=
  !continuesSymbol c && !isWord c

theorem not_isWord {c : Char} (hword : isWord c = false) : c ≠ '_' ∧ isLetter c = false := by
  simp only [isWord, isAlphanumeric, Bool.or_eq_false_iff, beq_eq_false_iff_ne] at hword
  exact ⟨hword.1, hword.2.1⟩

theorem isSigil_append
    {c d : Char} (rest after : List Char) (hd : isWord d = false) :
    isSigil c (rest ++ d :: after) = isSigil c rest := by
  cases rest with
  | nil => simp [isSigil, not_isWord hd]
  | cons e tail => rfl

theorem lexemes_append
    {before : List Char} (hbefore : LiteralsClosed before) {d : Char} (hd : beginsLexeme d = true)
    (after : List Char) :
    lexemes (before ++ d :: after) =
      lexemes before >>= fun earlier =>
        lexemes (d :: after) >>= fun later => .ok (earlier ++ later) := by
  simp only [beginsLexeme, Bool.and_eq_true, Bool.not_eq_true'] at hd
  obtain ⟨hsymbol, hword⟩ := hd
  induction before using lexemes_induction with
  | nil =>
      rw [List.nil_append, lexemes]
      cases lexemes (d :: after) <;> rfl
  | literal quote inside rest hquote hinside ih =>
      rw [List.cons_append, List.append_assoc, List.cons_append, lexemes_literal hquote hinside,
        lexemes_literal hquote hinside, ih (hbefore.of_literal hquote hinside)]
      cases lexemes rest with
      | error name => rfl
      | ok earlier => cases lexemes (d :: after) <;> rfl
  | unclosed quote rest hquote hunclosed =>
      obtain ⟨inside, later, hinside, hrest, _⟩ := hbefore.exists_literal hquote
      exact absurd hrest (hunclosed inside later hinside)
  | hidden rest =>
      rw [List.cons_append, List.cons_append, lexemes_private, lexemes_private, ← List.cons_append,
        takeWhile_append_cons hword]
      rfl
  | sigil c rest hletter ih =>
      have hread := ih (hbefore.of_cons rfl)
      rw [List.cons_append] at hread
      rw [List.cons_append, List.cons_append, lexemes_sigil hletter, lexemes_sigil hletter, hread]
      cases lexemes (c :: rest) with
      | error name => rfl
      | ok earlier => cases lexemes (d :: after) <;> rfl
  | symbol c rest hquote hsigil ih =>
      obtain ⟨source, _, hsource, hplain⟩ := exists_source_symbolLexeme c rest
      have hrest := hbefore.of_cons hquote
      rw [hsource] at hrest
      have hread := ih (hrest.of_plain_append hplain)
      rw [List.cons_append, lexemes_symbol hquote hsigil,
        lexemes_symbol hquote (by rw [isSigil_append rest after hword, hsigil]),
        symbolLexeme_append c rest after hsymbol, hread]
      cases lexemes (symbolLexeme c rest).2 with
      | error name => rfl
      | ok earlier => cases lexemes (d :: after) <;> rfl

/-! ## Private variables -/

theorem hostExpression_eq_error_iff {expression name : List Char} :
    hostExpression expression = .error name ↔ lexemes expression = .error name := by
  unfold hostExpression
  cases lexemes expression <;> simp [Except.map]

theorem namesPrivate_of_lexemes
    {expression name : List Char} (hlexemes : lexemes expression = .error name) :
    NamesPrivate expression := by
  induction expression using lexemes_induction with
  | nil =>
      rw [lexemes] at hlexemes
      contradiction
  | literal quote inside rest hquote hinside ih =>
      rw [lexemes_literal hquote hinside] at hlexemes
      exact (ih (bind_ok_eq_error_iff.mp hlexemes)).literal hquote hinside
  | unclosed quote rest hquote hunclosed =>
      rw [lexemes_unclosed hquote hunclosed] at hlexemes
      contradiction
  | hidden rest => exact occursOutside_append ['$', '_'] rest
  | sigil c rest hletter ih =>
      rw [lexemes_sigil hletter] at hlexemes
      exact (ih (bind_ok_eq_error_iff.mp hlexemes)).cons rfl
  | symbol c rest hquote hsigil ih =>
      obtain ⟨source, _, hsource, hplain⟩ := exists_source_symbolLexeme c rest
      rw [lexemes_symbol hquote hsigil] at hlexemes
      rw [hsource]
      exact ((ih (bind_ok_eq_error_iff.mp hlexemes)).plain_append hplain).cons hquote

/-- An expression is refused exactly for a private variable outside of its literals. -/
theorem isError_hostExpression_iff {expression : List Char} :
    (∃ name, hostExpression expression = .error name) ↔ NamesPrivate expression := by
  simp only [hostExpression_eq_error_iff]
  constructor
  · rintro ⟨name, hlexemes⟩
    exact namesPrivate_of_lexemes hlexemes
  · rintro ⟨before, after, rfl, hbefore⟩
    rw [List.append_assoc, List.cons_append, lexemes_append hbefore (by decide), List.cons_append,
      List.nil_append, lexemes_private]
    cases lexemes before with
    | error name => exact ⟨name, rfl⟩
    | ok earlier => exact ⟨_, rfl⟩

end Stencil.Directive
