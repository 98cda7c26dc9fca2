import Stencil.Proofs.Directive.Lexing
import Stencil.Proofs.Directive.Written

/-!
# The translation of expressions

Blanks outside of literals aside, an expression is written symbol by symbol: literals as they are,
names without their sigils, and a few operators in another spelling.  The operators that become
words never touch what stands before or behind them.
-/

namespace Stencil.Directive

open Stencil.Text

/-- A literal, or a character outside of literals. -/
inductive Atom where
  | literal (text : List Char)
  | char (c : Char)
  deriving DecidableEq

/-- What a text is made of when the blanks outside of its literals are left out. -/
def solid (text : List Char) : List Atom :=
  match text with
  | [] => []
  | c :: rest =>
    if isQuote c then
      .literal (c :: rest.take (stringWidth c rest)) :: solid (rest.drop (stringWidth c rest))
    else if isBlank c then solid rest
    else .char c :: solid rest
termination_by text.length
decreasing_by all_goals simp only [List.length_drop, List.length_cons]; omega

/-- A part of a translation: an atom, or an operator that becomes a word. -/
inductive Symbol where
  | atom (single : Atom)
  | word (operator : WordOperator)
  deriving DecidableEq

def Symbol.atoms : Symbol → List Atom
  | .atom single => [single]
  | .word operator => operator.word.map Atom.char

def spelled (text : List Char) : List Symbol :=
  text.map fun c => .atom (.char c)

/-- The operators that are spelled in another way; the first one that fits is taken. -/
def respelled : List (List Char × List Symbol) :=
  [(['=', '=', '='], spelled ['=', '=']),
    (['!', '=', '='], spelled ['!', '=']),
    (['!', '='], spelled ['!', '=']),
    (['-', '>'], spelled ['.']),
    (['&', '&'], [.word .both]),
    (['|', '|'], [.word .either]),
    (['!'], [.word .negation])]

/-- What an expression becomes, without the blanks outside of its literals. -/
def translation (expression : List Char) : List Symbol :=
  match expression with
  | [] => []
  | c :: rest =>
    if isQuote c then
      .atom (.literal (c :: rest.take (stringWidth c rest))) ::
        translation (rest.drop (stringWidth c rest))
    else if isBlank c || c == '$' && rest.head?.any isLetter then translation rest
    else
      match respelled.find? fun rule => rule.1.isPrefixOf (c :: rest) with
      | some (source, symbols) => symbols ++ translation (rest.drop (source.length - 1))
      | none => .atom (.char c) :: translation rest
termination_by expression.length
decreasing_by all_goals simp only [List.length_drop, List.length_cons]; omega

/-- The text is the translation of the expression.  Each operator that became a word has its place
in the text, behind what the symbols before it became: at the beginning or behind a blank or an
opening bracket, and with a blank or nothing behind it. -/
structure IsTranslation (expression written : List Char) : Prop where
  solid_eq : solid written = (translation expression).flatMap Symbol.atoms
  words_apart : ∀ earlier operator later,
    translation expression = earlier ++ .word operator :: later →
      ∃ before after,
        written = before ++ operator.word ++ after ∧ LiteralsClosed before ∧
          solid before = earlier.flatMap Symbol.atoms ∧
          (∀ c ∈ before.getLast?, isBlank c ∨ c = '(' ∨ c = '[') ∧ ∀ c ∈ after.head?, isBlank c

/-! ## Solid texts -/

theorem solid_literal
    {quote : Char} {inside : List Char} (hquote : isQuote quote = true)
    (hinside : LiteralInside quote inside) (rest : List Char) :
    solid (quote :: (inside ++ quote :: rest)) =
      .literal (quote :: (inside ++ [quote])) :: solid rest := by
  rw [solid, if_pos hquote, drop_stringWidth hquote hinside, take_stringWidth hquote hinside]

theorem solid_unclosed
    {quote : Char} {rest : List Char} (hquote : isQuote quote = true)
    (hunclosed : ∀ inside later, LiteralInside quote inside → rest ≠ inside ++ quote :: later) :
    solid (quote :: rest) = [.literal (quote :: rest)] := by
  rw [solid, if_pos hquote, stringWidth_of_unclosed hunclosed, List.drop_length, List.take_length,
    solid]

theorem solid_blank {c : Char} (hblank : isBlank c = true) (rest : List Char) :
    solid (c :: rest) = solid rest := by
  rw [solid, if_neg (by simp [isQuote_eq_false_of_isBlank hblank]), if_pos hblank]

theorem solid_char
    {c : Char} (hquote : isQuote c = false) (hblank : isBlank c = false) (rest : List Char) :
    solid (c :: rest) = .char c :: solid rest := by
  rw [solid, if_neg (by simp [hquote]), if_neg (by simp [hblank])]

theorem solid_plain_append
    {text : List Char} (htext : ∀ c ∈ text, isQuote c = false ∧ isBlank c = false)
    (rest : List Char) : solid (text ++ rest) = text.map Atom.char ++ solid rest := by
  induction text with
  | nil => rfl
  | cons c text ih =>
      rw [List.forall_mem_cons] at htext
      rw [List.cons_append, solid_char htext.1.1 htext.1.2, ih htext.2, List.map_cons,
        List.cons_append]

theorem WordOperator.plain_word (operator : WordOperator) :
    ∀ c ∈ operator.word, isQuote c = false ∧ isBlank c = false := by
  have hplain : operator.word.all (fun c => !isQuote c && !isBlank c) = true := by
    cases operator <;> decide
  simpa using hplain

theorem WordOperator.exists_word_eq (operator : WordOperator) :
    ∃ first rest, operator.word = first :: rest ∧ isBlank first = false := by
  cases operator with
  | both => exact ⟨'a', ['n', 'd'], rfl, by decide⟩
  | either => exact ⟨'o', ['r'], rfl, by decide⟩
  | negation => exact ⟨'n', ['o', 't'], rfl, by decide⟩

/-! ## Translations -/

theorem translation_literal
    {quote : Char} {inside : List Char} (hquote : isQuote quote = true)
    (hinside : LiteralInside quote inside) (rest : List Char) :
    translation (quote :: (inside ++ quote :: rest)) =
      .atom (.literal (quote :: (inside ++ [quote]))) :: translation rest := by
  rw [translation, if_pos hquote, drop_stringWidth hquote hinside, take_stringWidth hquote hinside]

theorem translation_unclosed
    {quote : Char} {rest : List Char} (hquote : isQuote quote = true)
    (hunclosed : ∀ inside later, LiteralInside quote inside → rest ≠ inside ++ quote :: later) :
    translation (quote :: rest) = [.atom (.literal (quote :: rest))] := by
  rw [translation, if_pos hquote, stringWidth_of_unclosed hunclosed, List.drop_length,
    List.take_length, translation]

theorem translation_sigil {c : Char} (hletter : isLetter c = true) (rest : List Char) :
    translation ('$' :: c :: rest) = translation (c :: rest) := by
  rw [translation, if_neg (by decide), if_pos (by simp [hletter])]

theorem translation_blanks {gap : List Char} (hgap : AllBlank gap) (rest : List Char) :
    translation (gap ++ rest) = translation rest := by
  induction gap with
  | nil => rfl
  | cons c gap ih =>
      rw [AllBlank, List.forall_mem_cons] at hgap
      rw [List.cons_append, translation, if_neg (by simp [isQuote_eq_false_of_isBlank hgap.1]),
        if_pos (by simp [hgap.1]), ih hgap.2]

def Lexeme.symbols : Lexeme → List Symbol
  | .quoted text => [.atom (.literal text)]
  | .sigil => []
  | .identical => spelled ['=', '=']
  | .notIdentical => spelled ['!', '=']
  | .arrow => spelled ['.']
  | .word operator _ => [.word operator]
  | .char c => if isBlank c then [] else [.atom (.char c)]

theorem translation_of_respelled
    {c : Char} {rest source : List Char} {symbols : List Symbol} (hquote : isQuote c = false)
    (hblank : isBlank c = false) (hc : c ≠ '$')
    (hfind : respelled.find? (fun rule => rule.1.isPrefixOf (c :: rest)) = some (source, symbols)) :
    translation (c :: rest) = symbols ++ translation (rest.drop (source.length - 1)) := by
  rw [translation, if_neg (by simp [hquote]), if_neg (by simp [hblank, hc]), hfind]

/-- A character that begins no other spelling stays as it is, unless it is a blank. -/
theorem translation_char
    {c : Char} {rest : List Char} (hquote : isQuote c = false) (hsigil : isSigil c rest = false)
    (hplain : ∀ rule ∈ respelled, ¬rule.1 <+: c :: rest) :
    translation (c :: rest) = (Lexeme.char c).symbols ++ translation rest := by
  have hfind : respelled.find? (fun rule => rule.1.isPrefixOf (c :: rest)) = none := by
    rw [List.find?_eq_none]
    intro rule hrule hprefix
    exact hplain rule hrule (List.isPrefixOf_iff_prefix.mp hprefix)
  have hname : ¬(c == '$' && rest.head?.any isLetter) = true := by
    cases rest <;> simp_all [isSigil]
  rw [translation, if_neg (by simp [hquote]), Lexeme.symbols]
  cases hblank : isBlank c with
  | true => rfl
  | false =>
      rw [Bool.false_or, if_neg hname, hfind]
      rfl

/-- An exclamation mark before a single equals sign stays as it is. -/
theorem translation_unequal {later : List Char} (hlater : ∀ behind, later ≠ '=' :: behind) :
    translation ('!' :: '=' :: later) =
      (Lexeme.char '!').symbols ++ translation ('=' :: later) := by
  have hfind : respelled.find? (fun rule => rule.1.isPrefixOf ('!' :: '=' :: later)) =
      some (['!', '='], spelled ['!', '=']) := by
    cases later with
    | nil => rfl
    | cons d behind =>
        have hd : d ≠ '=' := fun hd => hlater behind (by rw [hd])
        simp [respelled, List.isPrefixOf, hd.symm]
  have hequal : translation ('=' :: later) = (Lexeme.char '=').symbols ++ translation later := by
    refine translation_char rfl (by simp [isSigil]) fun rule hrule hprefix => ?_
    obtain ⟨behind, hbehind⟩ := hprefix
    simp only [respelled, List.mem_cons, List.not_mem_nil, or_false] at hrule
    rcases hrule with rfl | rfl | rfl | rfl | rfl | rfl | rfl
    · exact hlater ('=' :: behind) (List.cons.inj hbehind).2.symm
    all_goals simp at hbehind
  rw [translation_of_respelled rfl rfl (by decide) hfind, hequal]
  rfl

/-- An exclamation mark that no equals sign follows becomes a word. -/
theorem translation_negation {later : List Char} (hlater : ∀ behind, later ≠ '=' :: behind) :
    translation ('!' :: later) = .word .negation :: translation later := by
  have hfind : respelled.find? (fun rule => rule.1.isPrefixOf ('!' :: later)) =
      some (['!'], [.word .negation]) := by
    cases later with
    | nil => rfl
    | cons d behind =>
        have hd : d ≠ '=' := fun hd => hlater behind (by rw [hd])
        simp [respelled, List.isPrefixOf, hd.symm]
  exact translation_of_respelled rfl rfl (by decide) hfind

theorem translation_word
    (operator : WordOperator) {gap after : List Char} (hgap : AllBlank gap)
    (hequal : operator = .negation → ∀ later, gap ++ after ≠ '=' :: later) :
    translation (operator.symbol ++ (gap ++ after)) = .word operator :: translation after := by
  rw [← translation_blanks hgap after]
  cases operator with
  | both =>
      have hfind : respelled.find? (fun rule => rule.1.isPrefixOf ('&' :: '&' :: (gap ++ after))) =
          some (['&', '&'], [.word .both]) := rfl
      exact translation_of_respelled rfl rfl (by decide) hfind
  | either =>
      have hfind : respelled.find? (fun rule => rule.1.isPrefixOf ('|' :: '|' :: (gap ++ after))) =
          some (['|', '|'], [.word .either]) := rfl
      exact translation_of_respelled rfl rfl (by decide) hfind
  | negation => exact translation_negation (hequal rfl)

theorem translation_of_symbolForm
    {c : Char} {rest text after : List Char} {lexeme : Lexeme} (hquote : isQuote c = false)
    (hsigil : isSigil c rest = false) (hform : SymbolForm text lexeme after)
    (htext : c :: rest = text) :
    translation text = lexeme.symbols ++ translation after := by
  cases hform with
  | identical after =>
      have hfind : respelled.find? (fun rule => rule.1.isPrefixOf ('=' :: '=' :: '=' :: after)) =
          some (['=', '=', '='], spelled ['=', '=']) := rfl
      exact translation_of_respelled rfl rfl (by decide) hfind
  | notIdentical after =>
      have hfind : respelled.find? (fun rule => rule.1.isPrefixOf ('!' :: '=' :: '=' :: after)) =
          some (['!', '=', '='], spelled ['!', '=']) := rfl
      exact translation_of_respelled rfl rfl (by decide) hfind
  | arrow after =>
      have hfind : respelled.find? (fun rule => rule.1.isPrefixOf ('-' :: '>' :: after)) =
          some (['-', '>'], spelled ['.']) := rfl
      exact translation_of_respelled rfl rfl (by decide) hfind
  | word operator hgap _ hequal => exact translation_word operator hgap hequal
  | @char d after hidentical hnotIdentical harrow hboth heither hequal =>
      obtain ⟨rfl, rfl⟩ := List.cons.inj htext
      by_cases hc : c = '!'
      · obtain ⟨later, rfl⟩ := hequal hc
        subst hc
        refine translation_unequal ?_
        rintro behind rfl
        exact hnotIdentical behind rfl rfl
      · refine translation_char hquote hsigil fun rule hrule hprefix => ?_
        obtain ⟨behind, hbehind⟩ := hprefix
        simp only [respelled, List.mem_cons, List.not_mem_nil, or_false] at hrule
        rcases hrule with rfl | rfl | rfl | rfl | rfl | rfl | rfl
        all_goals obtain ⟨hfirst, hrest⟩ := List.cons.inj hbehind
        · exact hidentical behind hfirst.symm hrest.symm
        · exact hc hfirst.symm
        · exact hc hfirst.symm
        · exact harrow behind hfirst.symm hrest.symm
        · exact hboth behind hfirst.symm hrest.symm
        · exact heither behind hfirst.symm hrest.symm
        · exact hc hfirst.symm

/-! ## Symbols with blanks between them -/

/-- The text is made of the symbols in their order, with any blanks between them.  The truth value
says whether a word may stand at the beginning; no word touches what stands behind it. -/
inductive Spaced : Bool → List Symbol → List Char → Prop where
  | nil {opens : Bool} : Spaced opens [] []
  | blank {opens : Bool} {c : Char} {symbols : List Symbol} {text : List Char}
      (hc : isBlank c = true) (htext : Spaced true symbols text) : Spaced opens symbols (c :: text)
  | literal {opens : Bool} {quote : Char} {inside text : List Char} {symbols : List Symbol}
      (hquote : isQuote quote = true) (hinside : LiteralInside quote inside)
      (htext : Spaced false symbols text) :
      Spaced opens (.atom (.literal (quote :: (inside ++ [quote]))) :: symbols)
        (quote :: (inside ++ quote :: text))
  | unclosed {opens : Bool} {quote : Char} {rest : List Char} (hquote : isQuote quote = true)
      (hunclosed : ∀ inside later, LiteralInside quote inside → rest ≠ inside ++ quote :: later)
      (hlast : ∀ c ∈ (quote :: rest).getLast?, isBlank c = false) :
      Spaced opens [.atom (.literal (quote :: rest))] (quote :: rest)
  | char {opens : Bool} {c : Char} {symbols : List Symbol} {text : List Char}
      (hquote : isQuote c = false) (hblank : isBlank c = false)
      (htext : Spaced (c == '(' || c == '[') symbols text) :
      Spaced opens (.atom (.char c) :: symbols) (c :: text)
  | word (operator : WordOperator) {symbols : List Symbol} {text : List Char}
      (htext : Spaced false symbols text) (hbehind : ∀ c ∈ text.head?, isBlank c = true) :
      Spaced true (.word operator :: symbols) (operator.word ++ text)

section

variable {opens : Bool} {symbols : List Symbol} {text : List Char}

theorem Spaced.opening (hspaced : Spaced opens symbols text) : Spaced true symbols text := by
  cases hspaced with
  | nil => exact .nil
  | blank hc htext => exact .blank hc htext
  | literal hquote hinside htext => exact .literal hquote hinside htext
  | unclosed hquote hunclosed hlast => exact .unclosed hquote hunclosed hlast
  | char hquote hblank htext => exact .char hquote hblank htext
  | word operator htext hbehind => exact .word operator htext hbehind

theorem Spaced.of_closed (hspaced : Spaced false symbols text) : Spaced opens symbols text := by
  cases opens with
  | true => exact hspaced.opening
  | false => exact hspaced

theorem Spaced.solid_eq (hspaced : Spaced opens symbols text) :
    solid text = symbols.flatMap Symbol.atoms := by
  induction hspaced with
  | nil => rw [solid]; rfl
  | blank hc _ ih => rw [solid_blank hc, ih]
  | literal hquote hinside _ ih =>
      rw [solid_literal hquote hinside, ih, List.flatMap_cons]
      rfl
  | unclosed hquote hunclosed _ =>
      rw [solid_unclosed hquote hunclosed]
      rfl
  | char hquote hblank _ ih =>
      rw [solid_char hquote hblank, ih, List.flatMap_cons]
      rfl
  | word operator _ _ ih =>
      rw [solid_plain_append operator.plain_word, ih, List.flatMap_cons]
      rfl

/-- In the text a word stands behind what the earlier symbols became, and it touches neither that
nor what follows.  It stands at the very beginning only if a word may stand there. -/
def WordApart (opens : Bool) (earlier : List Symbol) (operator : WordOperator)
    (text : List Char) : Prop :=
  ∃ before after,
    text = before ++ operator.word ++ after ∧ LiteralsClosed before ∧
      solid before = earlier.flatMap Symbol.atoms ∧ (before = [] → opens = true) ∧
      (∀ c ∈ before.getLast?, isBlank c ∨ c = '(' ∨ c = '[') ∧ ∀ c ∈ after.head?, isBlank c

theorem WordApart.behind
    {opens outer : Bool} {earlier : List Symbol} {operator : WordOperator} {text : List Char}
    (hapart : WordApart opens earlier operator text) {front : List Char} (hfront : front ≠ [])
    (symbols : List Symbol)
    (hclosed : ∀ before, LiteralsClosed before → LiteralsClosed (front ++ before))
    (hsolid : ∀ before, solid (front ++ before) = symbols.flatMap Symbol.atoms ++ solid before)
    (hlast : opens = true → ∀ c ∈ front.getLast?, isBlank c ∨ c = '(' ∨ c = '[') :
    WordApart outer (symbols ++ earlier) operator (front ++ text) := by
  obtain ⟨before, after, rfl, hbefore, hearlier, hnil, hend, hafter⟩ := hapart
  refine ⟨front ++ before, after, by simp only [List.append_assoc], hclosed before hbefore, ?_,
    by simp [hfront], ?_, hafter⟩
  · rw [hsolid, hearlier, List.flatMap_append]
  · cases before with
    | nil =>
        rw [List.append_nil]
        exact hlast (hnil rfl)
    | cons d before => rwa [List.getLast?_append_of_ne_nil front (List.cons_ne_nil d before)]

theorem Spaced.words_apart
    (hspaced : Spaced opens symbols text) {earlier later : List Symbol} {operator : WordOperator}
    (hsymbols : symbols = earlier ++ .word operator :: later) :
    WordApart opens earlier operator text := by
  induction hspaced generalizing earlier with
  | nil => simp at hsymbols
  | @blank _ c _ _ hc _ ih =>
      exact (ih hsymbols).behind (List.cons_ne_nil c []) []
        (fun _ => .plain (isQuote_eq_false_of_isBlank hc)) (solid_blank hc) (by simp [hc])
  | @literal _ quote inside text _ hquote hinside _ ih =>
      cases earlier with
      | nil => simp at hsymbols
      | cons symbol earlier =>
          obtain ⟨rfl, hrest⟩ := List.cons.inj hsymbols
          have happly (before : List Char) : (quote :: (inside ++ [quote])) ++ before =
              quote :: (inside ++ quote :: before) := by simp
          rw [← happly text]
          refine (ih hrest).behind (List.cons_ne_nil _ _) [_] (fun before hbefore => ?_)
            (fun before => ?_) (fun hopens => absurd hopens (by decide))
          · rw [happly]
            exact .literal hquote hinside hbefore
          · rw [happly]
            exact solid_literal hquote hinside before
  | unclosed =>
      cases earlier with
      | nil => simp at hsymbols
      | cons symbol earlier => simp at hsymbols
  | @char _ c _ _ hquote hblank _ ih =>
      cases earlier with
      | nil => simp at hsymbols
      | cons symbol earlier =>
          obtain ⟨rfl, hrest⟩ := List.cons.inj hsymbols
          refine (ih hrest).behind (List.cons_ne_nil c []) [_] (fun _ => .plain hquote)
            (solid_char hquote hblank) fun hbracket => ?_
          rw [Bool.or_eq_true, beq_iff_eq, beq_iff_eq] at hbracket
          simp [hbracket]
  | @word first _ text htext hbehind ih =>
      cases earlier with
      | nil =>
          obtain ⟨hfirst, -⟩ := List.cons.inj hsymbols
          obtain rfl := Symbol.word.inj hfirst
          exact ⟨[], text, rfl, .nil, by rw [solid]; rfl, fun _ => rfl, by simp, hbehind⟩
      | cons symbol earlier =>
          obtain ⟨rfl, hrest⟩ := List.cons.inj hsymbols
          obtain ⟨_, _, hword, -⟩ := first.exists_word_eq
          exact (ih hrest).behind (hword ▸ List.cons_ne_nil _ _) [.word first]
            (fun _ => .plain_append fun c hc => (first.plain_word c hc).1)
            (fun before => by rw [solid_plain_append first.plain_word, List.flatMap_singleton]; rfl)
            fun hopens => absurd hopens (by decide)

/-! ## Trimming -/

theorem isBlank_of_isQuote {quote : Char} (hquote : isQuote quote = true) :
    isBlank quote = false := by
  rw [Bool.eq_false_iff]
  intro hblank
  rw [isQuote_eq_false_of_isBlank hblank] at hquote
  contradiction

theorem Spaced.skipBlanks (hspaced : Spaced opens symbols text) :
    Spaced true symbols (skipBlanks text) := by
  induction hspaced with
  | nil => exact .nil
  | @blank _ c _ _ hc _ ih => rwa [Text.skipBlanks, List.dropWhile_cons_of_pos hc]
  | literal hquote hinside htext =>
      rw [skipBlanks_of_noBlankFirst (noBlankFirst_cons (isBlank_of_isQuote hquote))]
      exact .literal hquote hinside htext
  | unclosed hquote hunclosed hlast =>
      rw [skipBlanks_of_noBlankFirst (noBlankFirst_cons (isBlank_of_isQuote hquote))]
      exact .unclosed hquote hunclosed hlast
  | char hquote hblank htext =>
      rw [skipBlanks_of_noBlankFirst (noBlankFirst_cons hblank)]
      exact .char hquote hblank htext
  | @word operator _ text htext hbehind =>
      obtain ⟨first, rest, hword, hfirst⟩ := operator.exists_word_eq
      have hkept : NoBlankFirst (operator.word ++ text) := by
        rw [hword]
        exact noBlankFirst_cons hfirst
      rw [skipBlanks_of_noBlankFirst hkept]
      exact .word operator htext hbehind

theorem Spaced.eq_nil_of_allBlank
    (hspaced : Spaced opens symbols text) (hblank : AllBlank text) : symbols = [] := by
  induction hspaced with
  | nil => rfl
  | blank _ _ ih => exact ih fun c hc => hblank c (List.mem_cons_of_mem _ hc)
  | @literal _ quote _ _ _ hquote =>
      have hfirst := hblank quote List.mem_cons_self
      rw [isBlank_of_isQuote hquote] at hfirst
      contradiction
  | @unclosed _ quote _ hquote =>
      have hfirst := hblank quote List.mem_cons_self
      rw [isBlank_of_isQuote hquote] at hfirst
      contradiction
  | @char _ c _ _ _ hc =>
      have hfirst := hblank c List.mem_cons_self
      rw [hc] at hfirst
      contradiction
  | word operator =>
      obtain ⟨first, rest, hword, hfirst⟩ := operator.exists_word_eq
      have hblank' := hblank first (by simp [hword])
      rw [hfirst] at hblank'
      contradiction

theorem Spaced.trimEnd (hspaced : Spaced opens symbols text) :
    Spaced opens symbols (trimEnd text) := by
  induction hspaced with
  | nil => exact .nil
  | @blank _ c _ text hc htext ih =>
      by_cases hblank : AllBlank text
      · have hempty : Text.trimEnd (c :: text) = [] :=
          trimEnd_eq_nil_iff.mpr (List.forall_mem_cons.mpr ⟨hc, hblank⟩)
        rw [hempty, htext.eq_nil_of_allBlank hblank]
        exact .nil
      · have hkept : Text.trimEnd (c :: text) = c :: Text.trimEnd text :=
          trimEnd_append hblank [c]
        rw [hkept]
        exact .blank hc ih
  | @literal _ quote inside text _ hquote hinside _ ih =>
      have hlast : NoBlankFirst (quote :: (inside ++ [quote])).reverse := by
        rw [← List.cons_append, List.reverse_append]
        exact noBlankFirst_cons (isBlank_of_isQuote hquote)
      have hkept : Text.trimEnd (quote :: (inside ++ quote :: text)) =
          quote :: (inside ++ quote :: Text.trimEnd text) := by
        have htrim : Text.trimEnd (quote :: (inside ++ [quote]) ++ text) =
            quote :: (inside ++ [quote]) ++ Text.trimEnd text :=
          trimEnd_append_of_noBlankFirst_reverse hlast
        simpa using htrim
      rw [hkept]
      exact .literal hquote hinside ih
  | unclosed hquote hunclosed hlast =>
      rw [trimEnd_eq_self_iff.mpr hlast]
      exact .unclosed hquote hunclosed hlast
  | char hquote hblank _ ih =>
      rw [trimEnd_cons hblank]
      exact .char hquote hblank ih
  | @word operator _ text _ hbehind ih =>
      have hlast : NoBlankFirst operator.word.reverse := by
        cases operator <;> exact noBlankFirst_cons (by decide)
      rw [trimEnd_append_of_noBlankFirst_reverse hlast]
      refine .word operator ih fun c hc => hbehind c ?_
      obtain ⟨gap, -, hgap⟩ := exists_eq_trimEnd_append text
      obtain ⟨rest, hrest⟩ := List.head?_eq_some_iff.mp hc
      rw [hgap, hrest]
      rfl

end

/-! ## What is written -/

/-- A word may stand at the beginning of what is written next. -/
def Before.opens : Before → Bool
  | .other => false
  | _ => true

theorem spaced_word (before : Before) (operator : WordOperator) (blanks : List Char)
    {later : List Lexeme} {symbols : List Symbol}
    (hlater : Spaced false symbols (writeFrom .other later)) :
    Spaced before.opens (.word operator :: symbols)
      (writeFrom before (.word operator blanks :: later)) := by
  have hword : Spaced true (.word operator :: symbols) (operator.word ++
      ((if startsWithWord later then [] else [' ']) ++ writeFrom .other later)) := by
    cases hstarts : startsWithWord later with
    | true =>
        refine .word operator hlater fun c hc => ?_
        obtain ⟨tail, htail⟩ := head_writeFrom_of_startsWithWord hstarts
        rw [if_pos rfl, List.nil_append, htail, List.head?_cons, Option.mem_some_iff] at hc
        subst hc
        decide
    | false =>
        refine .word operator (.blank (by decide) hlater.of_closed) fun c hc => ?_
        rw [if_neg Bool.false_ne_true, List.singleton_append, List.head?_cons,
          Option.mem_some_iff] at hc
        subst hc
        decide
  have hwritten : writeFrom before (.word operator blanks :: later) = before.gap ++
      (operator.word ++ ((if startsWithWord later then [] else [' ']) ++
        writeFrom .other later)) := by
    simp only [writeFrom, List.append_assoc]
  rw [hwritten]
  cases before with
  | nothing => exact hword
  | bracket => exact hword
  | other => exact .blank (by decide) hword

theorem spaced_char (before : Before) {c : Char} (hquote : isQuote c = false)
    {later : List Lexeme} {symbols : List Symbol}
    (hlater : ∀ next : Before, Spaced next.opens symbols (writeFrom next later)) :
    Spaced before.opens ((Lexeme.char c).symbols ++ symbols)
      (writeFrom before (.char c :: later)) := by
  rw [writeFrom, Lexeme.symbols]
  cases hblank : isBlank c with
  | true =>
      rw [if_pos rfl, List.nil_append]
      split
      · exact (hlater .other).of_closed
      · exact .blank hblank (hlater _).opening
  | false =>
      have hspace : ¬(c == ' ' && startsWithWord later) = true := by
        rw [Bool.and_eq_true, beq_iff_eq]
        rintro ⟨rfl, -⟩
        contradiction
      have hnext : (if c == '(' || c == '[' then Before.bracket else .other).opens =
          (c == '(' || c == '[') := by
        cases c == '(' || c == '[' <;> rfl
      have hrest := hlater (if c == '(' || c == '[' then .bracket else .other)
      rw [hnext] at hrest
      rw [if_neg hspace]
      exact .char hquote hblank hrest

theorem spaced_symbol (before : Before) {text after : List Char} {lexeme : Lexeme}
    (hform : SymbolForm text lexeme after) (hquote : ∀ c ∈ text.head?, isQuote c = false)
    {later : List Lexeme} {symbols : List Symbol}
    (hlater : ∀ next : Before, Spaced next.opens symbols (writeFrom next later)) :
    Spaced before.opens (lexeme.symbols ++ symbols) (writeFrom before (lexeme :: later)) := by
  cases hform with
  | identical => exact .char (by decide) (by decide) (.char (by decide) (by decide) (hlater .other))
  | notIdentical =>
      exact .char (by decide) (by decide) (.char (by decide) (by decide) (hlater .other))
  | arrow => exact .char (by decide) (by decide) (hlater .other)
  | word operator => exact spaced_word before operator _ (hlater .other)
  | char => exact spaced_char before (hquote _ rfl) hlater

theorem last_of_append
    {front rest : List Char} (hlast : ∀ c ∈ (front ++ rest).getLast?, isBlank c = false) :
    ∀ c ∈ rest.getLast?, isBlank c = false := by
  cases rest with
  | nil => simp
  | cons d rest => rwa [List.getLast?_append_of_ne_nil front (List.cons_ne_nil d rest)] at hlast

theorem spaced_writeFrom
    {expression : List Char} {found : List Lexeme} (before : Before)
    (hfound : lexemes expression = .ok found)
    (hlast : ∀ c ∈ expression.getLast?, isBlank c = false) :
    Spaced before.opens (translation expression) (writeFrom before found) := by
  rw [lexemes_eq_ok_iff] at hfound
  induction hfound generalizing before with
  | nil =>
      rw [translation]
      exact .nil
  | @literal quote inside rest later hquote hinside _ ih =>
      have hshape : quote :: (inside ++ [quote]) ++ writeFrom .other later =
          quote :: (inside ++ quote :: writeFrom .other later) := by simp
      rw [← List.cons_append, List.append_cons] at hlast
      rw [translation_literal hquote hinside, writeFrom, hshape]
      exact .literal hquote hinside (ih .other (last_of_append hlast))
  | unclosed hquote hunclosed =>
      rw [translation_unclosed hquote hunclosed, writeFrom, writeFrom, List.append_nil]
      exact .unclosed hquote hunclosed hlast
  | sigil hletter _ ih =>
      rw [List.getLast?_cons_cons] at hlast
      rw [translation_sigil hletter, writeFrom]
      exact ih before hlast
  | @symbol c rest later hquote hsigil _ ih =>
      obtain ⟨tail, _, hsource, _⟩ := exists_source_symbolLexeme c rest
      have hform := symbolForm_symbolLexeme c rest
      have hrest : ∀ d ∈ (symbolLexeme c rest).2.getLast?, isBlank d = false := by
        rw [hsource, ← List.cons_append] at hlast
        exact last_of_append hlast
      rw [translation_of_symbolForm hquote hsigil hform rfl]
      exact spaced_symbol before hform (by simpa using hquote) fun next => ih next hrest

/-! ## The translation of an expression -/

/-- An expression is refused for a private variable outside of its literals, and for nothing else;
any other one is written as its translation. -/
theorem hostExpression_translation (expression : List Char) (htrim : trim expression = expression) :
    ((∃ name, hostExpression expression = .error name) ↔ NamesPrivate expression) ∧
      (¬NamesPrivate expression →
        ∃ written, hostExpression expression = .ok written ∧ IsTranslation expression written) := by
  refine ⟨isError_hostExpression_iff, fun hpublic => ?_⟩
  cases hwritten : hostExpression expression with
  | error name => exact absurd (isError_hostExpression_iff.mp ⟨name, hwritten⟩) hpublic
  | ok written =>
      rw [hostExpression, map_eq_ok_iff] at hwritten
      obtain ⟨found, hfound, rfl⟩ := hwritten
      have hlast : ∀ c ∈ expression.getLast?, isBlank c = false := by
        rw [← trimEnd_eq_self_iff, ← htrim, trim, trimEnd_trimEnd]
      have hspaced : Spaced true (translation expression) (trim (writeFrom .nothing found)) :=
        (spaced_writeFrom .nothing hfound hlast).skipBlanks.trimEnd
      refine ⟨_, rfl, hspaced.solid_eq, fun earlier operator later hsymbols => ?_⟩
      obtain ⟨before, after, hsplit, hclosed, hsolid, -, hbefore, hafter⟩ :=
        hspaced.words_apart hsymbols
      exact ⟨before, after, hsplit, hclosed, hsolid, hbefore, hafter⟩

theorem hostExpression_translation_mixed :
    trim "!$a&&\"x  &&\"===($b->c||! $d)".toList = "!$a&&\"x  &&\"===($b->c||! $d)".toList ∧
      IsTranslation "!$a&&\"x  &&\"===($b->c||! $d)".toList
        "not a and \"x  &&\"==(b.c or not d)".toList := by
  have htrim : trim "!$a&&\"x  &&\"===($b->c||! $d)".toList =
      "!$a&&\"x  &&\"===($b->c||! $d)".toList := by decide +kernel
  have hwritten : hostExpression "!$a&&\"x  &&\"===($b->c||! $d)".toList =
      .ok "not a and \"x  &&\"==(b.c or not d)".toList := by decide +kernel
  obtain ⟨hprivate, htranslation⟩ := hostExpression_translation _ htrim
  have hpublic : ¬NamesPrivate "!$a&&\"x  &&\"===($b->c||! $d)".toList := by
    rw [← hprivate, hwritten]
    simp
  obtain ⟨written, hok, htranslated⟩ := htranslation hpublic
  rw [hwritten, Except.ok.injEq] at hok
  subst hok
  exact ⟨htrim, htranslated⟩

end Stencil.Directive
