import Stencil.Proofs.Directive.Injection

/-!
# Names that begin with an underscore

A variable is private if its name begins with an underscore.  An expression is refused for such a
name behind its sigil only.  The name without a sigil is written as it stands, and nothing but a
point or an arrow before it makes an attribute of it.
-/

namespace Stencil.Directive

open Stencil.Text

/-- What follows does not continue a name and is no attribute. -/
def EndsApart (before : List Char) : Prop :=
  ∀ c ∈ before.getLast?, isWord c = false ∧ c ≠ '.'

instance (before : List Char) : Decidable (EndsApart before) :=
  decidable_of_iff ((before.getLast?.all fun c => !isWord c && c != '.') = true) (by
    rw [EndsApart]
    cases before.getLast? <;> simp)

/-- In an expression an arrow stands for a point. -/
def EndsBare (before : List Char) : Prop :=
  EndsApart before ∧ ¬['-', '>'] <:+ before

/-- An underscore stands outside of literals where a name can begin, behind the given text. -/
def Underscored (begins : List Char → Prop) (front text : List Char) : Prop :=
  ∃ before after, text = before ++ '_' :: after ∧ LiteralsClosed before ∧ begins (front ++ before)

/-- Outside of literals a name begins with an underscore, and it is no attribute. -/
def NamesUnderscored (text : List Char) : Prop :=
  Underscored EndsApart [] text

/-- The same in an expression, where the name stands without a sigil. -/
def NamesBare (expression : List Char) : Prop :=
  Underscored EndsBare [] expression

/-! ## Where a name can begin -/

theorem endsApart_nil : EndsApart [] := by
  simp [EndsApart]

theorem endsApart_of_getLast? {text : List Char} {c : Char} (hlast : text.getLast? = some c) :
    EndsApart text ↔ isWord c = false ∧ c ≠ '.' := by
  simp [EndsApart, hlast]

theorem endsApart_append {text : List Char} (htext : text ≠ []) (front : List Char) :
    EndsApart (front ++ text) ↔ EndsApart text := by
  rw [EndsApart, EndsApart, List.getLast?_append_of_ne_nil front htext]

theorem endsBare_of_getLast?
    {text : List Char} {c : Char} (hlast : text.getLast? = some c) (hc : c ≠ '>') :
    EndsBare text ↔ isWord c = false ∧ c ≠ '.' := by
  have harrow : ¬['-', '>'] <:+ text := by
    rintro ⟨front, rfl⟩
    simp only [List.getLast?_append_cons, List.getLast?_cons_cons, List.getLast?_singleton,
      Option.some.injEq] at hlast
    exact hc hlast.symm
  rw [EndsBare, endsApart_of_getLast? hlast, and_iff_left harrow]

theorem endsBare_concat (text : List Char) (c : Char) :
    EndsBare (text ++ [c]) ↔ EndsApart [c] ∧ ¬(c = '>' ∧ text.getLast? = some '-') := by
  have harrow : ['-', '>'] <:+ text ++ [c] ↔ c = '>' ∧ text.getLast? = some '-' := by
    constructor
    · rintro ⟨front, hfront⟩
      rw [List.append_cons] at hfront
      obtain ⟨rfl, hc⟩ := List.append_inj' hfront rfl
      exact ⟨(List.cons.inj hc).1.symm, by simp⟩
    · rintro ⟨rfl, hlast⟩
      obtain ⟨front, rfl⟩ := List.getLast?_eq_some_iff.mp hlast
      exact ⟨front, by simp⟩
  rw [EndsBare, endsApart_append (List.cons_ne_nil c []), harrow]

def isPlain (c : Char) : Bool :=
  !isQuote c && c != '_'

theorem unquoted_of_plain {text : List Char} (htext : text.all isPlain = true) :
    ∀ c ∈ text, isQuote c = false := by
  simp only [List.all_eq_true, isPlain, Bool.and_eq_true, Bool.not_eq_true'] at htext
  exact fun c hc => (htext c hc).1

theorem underscore_notMem_of_plain {text : List Char} (htext : text.all isPlain = true) :
    '_' ∉ text := by
  intro hmem
  have hplain := List.all_eq_true.mp htext '_' hmem
  contradiction

section

variable {begins : List Char → Prop} {front text rest : List Char}

theorem not_underscored_of_notMem (htext : '_' ∉ text) : ¬Underscored begins front text := by
  rintro ⟨before, after, rfl, -, -⟩
  simp at htext

theorem underscored_cons {c : Char} (hc : isQuote c = false) :
    Underscored begins front (c :: rest) ↔
      (c = '_' ∧ begins front) ∨ Underscored begins (front ++ [c]) rest := by
  constructor
  · rintro ⟨before, after, htext, hclosed, hbegins⟩
    cases before with
    | nil =>
        rw [List.append_nil] at hbegins
        exact .inl ⟨(List.cons.inj htext).1, hbegins⟩
    | cons d before =>
        obtain ⟨rfl, hrest⟩ := List.cons.inj htext
        exact .inr ⟨before, after, hrest, hclosed.of_cons hc, by rwa [List.append_assoc]⟩
  · rintro (⟨rfl, hbegins⟩ | ⟨before, after, rfl, hclosed, hbegins⟩)
    · exact ⟨[], rest, rfl, .nil, by rwa [List.append_nil]⟩
    · exact ⟨c :: before, after, rfl, .plain hc hclosed, by rwa [List.append_assoc] at hbegins⟩

theorem underscored_append (htext : ∀ c ∈ text, isQuote c = false) :
    Underscored begins front (text ++ rest) ↔
      Underscored begins front text ∨ Underscored begins (front ++ text) rest := by
  induction text generalizing front with
  | nil => simp [not_underscored_of_notMem]
  | cons c text ih =>
      rw [List.forall_mem_cons] at htext
      rw [List.cons_append, underscored_cons htext.1, underscored_cons htext.1, ih htext.2,
        List.append_assoc, or_assoc]
      rfl

theorem underscored_plain_append (htext : text.all isPlain = true) :
    Underscored begins front (text ++ rest) ↔ Underscored begins (front ++ text) rest := by
  rw [underscored_append (unquoted_of_plain htext),
    or_iff_right (not_underscored_of_notMem (underscore_notMem_of_plain htext))]

theorem underscored_append_of_notMem (hrest : '_' ∉ rest) :
    Underscored begins front (text ++ rest) ↔ Underscored begins front text := by
  constructor
  · rintro ⟨before, after, htext, hclosed, hbegins⟩
    rcases List.append_eq_append_iff.mp htext with ⟨tail, rfl, hrest'⟩ | ⟨tail, rfl, hafter⟩
    · rw [hrest'] at hrest
      simp at hrest
    · cases tail with
      | nil =>
          rw [List.nil_append] at hafter
          rw [← hafter] at hrest
          simp at hrest
      | cons c tail =>
          obtain ⟨rfl, -⟩ := List.cons.inj hafter
          exact ⟨before, tail, rfl, hclosed, hbegins⟩
  · rintro ⟨before, after, rfl, hclosed, hbegins⟩
    exact ⟨before, after ++ rest, by simp, hclosed, hbegins⟩

theorem underscored_literal
    {quote : Char} {inside : List Char} (hquote : isQuote quote = true)
    (hinside : LiteralInside quote inside) :
    Underscored begins front (quote :: (inside ++ quote :: rest)) ↔
      Underscored begins (front ++ quote :: (inside ++ [quote])) rest := by
  constructor
  · rintro ⟨before, after, htext, hclosed, hbegins⟩
    cases before with
    | nil =>
        obtain ⟨rfl, -⟩ := List.cons.inj htext
        contradiction
    | cons d before =>
        obtain ⟨rfl, htail⟩ := List.cons.inj htext
        obtain ⟨inside', later, hinside', rfl, hlater⟩ := hclosed.exists_literal hquote
        change inside ++ quote :: rest = inside' ++ quote :: later ++ '_' :: after at htail
        rw [List.append_assoc, List.cons_append] at htail
        have hwidth := stringWidth_append hquote hinside rest
        rw [htail, stringWidth_append hquote hinside', Nat.add_right_cancel_iff] at hwidth
        obtain ⟨rfl, hrest⟩ := List.append_inj htail hwidth.symm
        exact ⟨later, after, (List.cons.inj hrest).2, hlater, by simpa using hbegins⟩
  · rintro ⟨before, after, rfl, hclosed, hbegins⟩
    exact ⟨quote :: (inside ++ quote :: before), after, by simp, .literal hquote hinside hclosed,
      by simpa using hbegins⟩

theorem not_underscored_unclosed
    {quote : Char} (hquote : isQuote quote = true)
    (hunclosed : ∀ inside later, LiteralInside quote inside → text ≠ inside ++ quote :: later) :
    ¬Underscored begins front (quote :: text) := by
  rintro ⟨before, after, htext, hclosed, -⟩
  cases before with
  | nil =>
      obtain ⟨rfl, -⟩ := List.cons.inj htext
      contradiction
  | cons d before =>
      obtain ⟨rfl, htail⟩ := List.cons.inj htext
      obtain ⟨inside, later, hinside, rfl, -⟩ := hclosed.exists_literal hquote
      exact hunclosed inside (later ++ '_' :: after) hinside (by rw [htail]; simp)

end

/-- Nothing but the end of what stands before a text matters. -/
theorem underscored_of_endsApart {front : List Char} (hfront : EndsApart front) (text : List Char) :
    Underscored EndsApart front text ↔ NamesUnderscored text := by
  have hbefore (before : List Char) : EndsApart (front ++ before) ↔ EndsApart before := by
    cases before with
    | nil => simp [hfront, endsApart_nil]
    | cons c before => exact endsApart_append (List.cons_ne_nil c before) front
  simp only [NamesUnderscored, Underscored, hbefore, List.nil_append]

/-! ## What is written for an expression -/

/-- A name may go on in what is written just where it may go on in what was read. -/
def Aligned (read written rest : List Char) : Prop :=
  (rest.head? = some '_' → (EndsApart written ↔ EndsBare read)) ∧
    (read.getLast? = some '-' → rest.head? ≠ some '>')

/-- A character behind which every name begins anew. -/
def Separates (c : Char) : Prop :=
  isWord c = false ∧ c ≠ '.' ∧ c ≠ '-' ∧ c ≠ '>'

theorem separates_of_isQuote {c : Char} (hquote : isQuote c = true) : Separates c := by
  rw [isQuote, Bool.or_eq_true, beq_iff_eq, beq_iff_eq] at hquote
  rcases hquote with rfl | rfl <;> exact ⟨by decide, by decide, by decide, by decide⟩

theorem separates_of_isBlank {c : Char} (hblank : isBlank c) : Separates c := by
  refine ⟨isWord_eq_false_of_isBlank hblank, ?_, ?_, ?_⟩ <;> rintro rfl <;> contradiction

theorem aligned_of_separates
    {read written rest : List Char} {c d : Char} (hread : read.getLast? = some c)
    (hwritten : written.getLast? = some d) (hc : Separates c) (hd : Separates d) :
    Aligned read written rest := by
  constructor
  · intro _
    rw [endsApart_of_getLast? hwritten, endsBare_of_getLast? hread hc.2.2.2]
    exact iff_of_true ⟨hd.1, hd.2.1⟩ ⟨hc.1, hc.2.1⟩
  · intro hlast
    rw [hread, Option.some.injEq] at hlast
    exact absurd hlast hc.2.2.1

theorem startsWithWord_eq_false_of_underscore
    {rest : List Char} {found : List Lexeme} (hfound : lexemes rest = .ok found)
    (hrest : rest.head? = some '_') : startsWithWord found = false := by
  obtain ⟨tail, rfl⟩ := List.head?_eq_some_iff.mp hrest
  rw [lexemes_symbol rfl rfl, bind_ok_eq_ok_iff] at hfound
  obtain ⟨later, -, rfl⟩ := hfound
  rfl

theorem plain_of_word (before : Before) (operator : WordOperator) (isLast : Bool) :
    (before.gap ++ operator.word ++ (if isLast then [] else [' '])).all isPlain = true := by
  cases before <;> cases operator <;> cases isLast <;> decide

theorem plain_of_allBlank {gap : List Char} (hgap : AllBlank gap) : gap.all isPlain = true := by
  rw [List.all_eq_true]
  intro c hc
  rw [isPlain, isQuote_eq_false_of_isBlank (hgap c hc), Bool.not_false, Bool.true_and,
    bne_iff_ne]
  rintro rfl
  exact absurd (hgap '_' hc) (by decide)

theorem plain_of_symbol (operator : WordOperator) {gap : List Char} (hgap : AllBlank gap) :
    (operator.symbol ++ gap).all isPlain = true := by
  rw [List.all_append, plain_of_allBlank hgap, Bool.and_true]
  cases operator <;> decide

theorem getLast?_word
    (operator : WordOperator) {gap : List Char} (hgap : AllBlank gap) (front : List Char) :
    ∃ c, (front ++ (operator.symbol ++ gap)).getLast? = some c ∧ Separates c := by
  rcases List.eq_nil_or_concat gap with rfl | ⟨earlier, last, rfl⟩
  · cases operator
    · exact ⟨'&', by simp [WordOperator.symbol], by decide, by decide, by decide, by decide⟩
    · exact ⟨'|', by simp [WordOperator.symbol], by decide, by decide, by decide, by decide⟩
    · exact ⟨'!', by simp [WordOperator.symbol], by decide, by decide, by decide, by decide⟩
  · exact ⟨last, by simp [List.concat_eq_append],
      separates_of_isBlank (hgap last (by simp [List.concat_eq_append]))⟩

section

variable {after : List Char} {later : List Lexeme} (hlater : lexemes after = .ok later)
  (hrest : ∀ (before : Before) {read written : List Char}, Aligned read written after →
    (Underscored EndsApart written (writeFrom before later) ↔ Underscored EndsBare read after))

include hlater hrest

theorem underscored_word_iff
    (before : Before) (operator : WordOperator) {gap : List Char} (hgap : AllBlank gap)
    (read written : List Char) :
    Underscored EndsApart written (writeFrom before (.word operator gap :: later)) ↔
      Underscored EndsBare read (operator.symbol ++ (gap ++ after)) := by
  obtain ⟨last, hlast, hseparates⟩ := getLast?_word operator hgap read
  rw [writeFrom, ← List.append_assoc operator.symbol,
    underscored_plain_append (plain_of_word before operator _),
    underscored_plain_append (plain_of_symbol operator hgap)]
  refine hrest .other ?_
  cases hstarts : startsWithWord later with
  | false =>
      have hspace : Separates ' ' := ⟨by decide, by decide, by decide, by decide⟩
      exact aligned_of_separates hlast (by simp) hseparates hspace
  | true =>
      refine ⟨fun hname => ?_, fun harrow => ?_⟩
      · rw [startsWithWord_eq_false_of_underscore hlater hname] at hstarts
        contradiction
      · rw [hlast, Option.some.injEq] at harrow
        exact absurd harrow hseparates.2.2.1

theorem underscored_char_iff
    (before : Before) {c : Char} (hquote : isQuote c = false)
    (harrow : ∀ tail, c = '-' → after ≠ '>' :: tail) {read written : List Char}
    (haligned : Aligned read written (c :: after)) :
    Underscored EndsApart written (writeFrom before (.char c :: later)) ↔
      Underscored EndsBare read (c :: after) := by
  have hdash : (read ++ [c]).getLast? = some '-' → after.head? ≠ some '>' := by
    rw [List.getLast?_concat, Option.some.injEq]
    intro hc hhead
    obtain ⟨tail, htail⟩ := List.head?_eq_some_iff.mp hhead
    exact harrow tail hc htail
  rw [underscored_cons hquote, writeFrom]
  split
  next hdropped =>
    rw [Bool.and_eq_true, beq_iff_eq] at hdropped
    obtain ⟨rfl, hstarts⟩ := hdropped
    rw [or_iff_right (by simp)]
    refine hrest .other ⟨fun hname => ?_, hdash⟩
    rw [startsWithWord_eq_false_of_underscore hlater hname] at hstarts
    contradiction
  next =>
    have hhere : c = '_' ∧ EndsApart written ↔ c = '_' ∧ EndsBare read :=
      and_congr_right fun hc => haligned.1 (by rw [List.head?_cons, hc])
    have hafter : ¬(c = '>' ∧ read.getLast? = some '-') := by
      rintro ⟨rfl, hlast⟩
      exact haligned.2 hlast rfl
    rw [underscored_cons hquote, hhere]
    refine or_congr_right (hrest _ ⟨fun _ => ?_, hdash⟩)
    rw [endsApart_append (List.cons_ne_nil c []), endsBare_concat, and_iff_left hafter]

theorem underscored_symbol_iff
    (before : Before) {text : List Char} {lexeme : Lexeme} (hform : SymbolForm text lexeme after)
    (hquote : ∀ c ∈ text.head?, isQuote c = false) {read written : List Char}
    (haligned : Aligned read written text) :
    Underscored EndsApart written (writeFrom before (lexeme :: later)) ↔
      Underscored EndsBare read text := by
  have hequal : Separates '=' := ⟨by decide, by decide, by decide, by decide⟩
  cases hform with
  | identical =>
      change _ ↔ Underscored EndsBare read (['=', '=', '='] ++ after)
      have hwhole : writeFrom before (.identical :: later) =
          ['=', '='] ++ writeFrom .other later := rfl
      rw [hwhole, underscored_plain_append (by decide), underscored_plain_append (by decide)]
      exact hrest .other (aligned_of_separates (by simp) (by simp) hequal hequal)
  | notIdentical =>
      change _ ↔ Underscored EndsBare read (['!', '=', '='] ++ after)
      have hwhole : writeFrom before (.notIdentical :: later) =
          ['!', '='] ++ writeFrom .other later := rfl
      rw [hwhole, underscored_plain_append (by decide), underscored_plain_append (by decide)]
      exact hrest .other (aligned_of_separates (by simp) (by simp) hequal hequal)
  | arrow =>
      change _ ↔ Underscored EndsBare read (['-', '>'] ++ after)
      have hwhole : writeFrom before (.arrow :: later) = ['.'] ++ writeFrom .other later := rfl
      rw [hwhole, underscored_plain_append (by decide), underscored_plain_append (by decide)]
      refine hrest .other ⟨fun _ => iff_of_false ?_ ?_, by simp⟩
      · simp [EndsApart]
      · rintro ⟨-, harrow⟩
        exact harrow (List.suffix_append read _)
  | word operator hgap =>
      exact underscored_word_iff hlater hrest before operator hgap read written
  | @char c _ _ _ harrow =>
      exact underscored_char_iff hlater hrest before (hquote c rfl) harrow haligned

end

/-- Names that begin with an underscore are written for themselves, and for nothing else. -/
theorem underscored_writeFrom_iff
    {expression : List Char} {found : List Lexeme} (before : Before) {read written : List Char}
    (hfound : lexemes expression = .ok found) (haligned : Aligned read written expression) :
    Underscored EndsApart written (writeFrom before found) ↔
      Underscored EndsBare read expression := by
  rw [lexemes_eq_ok_iff] at hfound
  induction hfound generalizing before read written with
  | nil =>
      exact iff_of_false (not_underscored_of_notMem List.not_mem_nil)
        (not_underscored_of_notMem List.not_mem_nil)
  | @literal quote inside rest later hquote hinside _ ih =>
      have hshape : quote :: (inside ++ [quote]) ++ writeFrom .other later =
          quote :: (inside ++ quote :: writeFrom .other later) := by simp
      have hlast (front : List Char) :
          (front ++ quote :: (inside ++ [quote])).getLast? = some quote := by
        rw [← List.cons_append, ← List.append_assoc, List.getLast?_concat]
      have hquote' := separates_of_isQuote hquote
      rw [writeFrom, hshape, underscored_literal hquote hinside, underscored_literal hquote hinside]
      exact ih .other (aligned_of_separates (hlast read) (hlast written) hquote' hquote')
  | unclosed hquote hunclosed =>
      rw [writeFrom, writeFrom, List.append_nil]
      exact iff_of_false (not_underscored_unclosed hquote hunclosed)
        (not_underscored_unclosed hquote hunclosed)
  | @sigil c rest later hletter _ ih =>
      have hhead : (c :: rest).head? ≠ some '_' := by
        simpa using ne_underscore_of_isLetter hletter
      rw [writeFrom, underscored_cons rfl, or_iff_right (by simp)]
      exact ih before ⟨fun hname => absurd hname hhead, by simp⟩
  | @symbol c rest later hquote _ hlater ih =>
      exact underscored_symbol_iff hlater.lexemes_eq (fun next _ _ => ih next) before
        (symbolForm_symbolLexeme c rest) (by simpa using hquote) haligned

/-! ## What is written in a tag -/

theorem namesUnderscored_trim (text : List Char) :
    NamesUnderscored (trim text) ↔ NamesUnderscored text := by
  obtain ⟨gap, hgap, -, htext⟩ := exists_eq_append_skipBlanks text
  obtain ⟨gap', hgap', hskipped⟩ := exists_eq_trimEnd_append (skipBlanks text)
  have hapart : EndsApart gap := fun c hc => by
    have hseparates := separates_of_isBlank (hgap c (List.mem_of_getLast? hc))
    exact ⟨hseparates.1, hseparates.2.1⟩
  conv_rhs =>
    rw [htext, NamesUnderscored, underscored_plain_append (plain_of_allBlank hgap), List.nil_append,
      underscored_of_endsApart hapart, hskipped, NamesUnderscored,
      underscored_append_of_notMem (underscore_notMem_of_plain (plain_of_allBlank hgap'))]
  rfl

theorem namesUnderscored_hostExpression_iff
    {expression written : List Char} (hwritten : hostExpression expression = .ok written) :
    NamesUnderscored written ↔ NamesBare expression := by
  rw [hostExpression, map_eq_ok_iff] at hwritten
  obtain ⟨found, hfound, rfl⟩ := hwritten
  rw [namesUnderscored_trim]
  refine underscored_writeFrom_iff .nothing hfound ⟨fun _ => iff_of_true endsApart_nil ?_, by simp⟩
  exact ⟨endsApart_nil, by simp⟩

/-- A text without quotes and without such names. -/
structure Harmless (text : List Char) : Prop where
  unquoted : ∀ c ∈ text, isQuote c = false
  unnamed : ¬NamesUnderscored text

theorem harmless_of_plain {text : List Char} (htext : text.all isPlain = true) : Harmless text :=
  ⟨unquoted_of_plain htext, not_underscored_of_notMem (underscore_notMem_of_plain htext)⟩

theorem Harmless.append
    {before text : List Char} (hbefore : Harmless before) (htext : Harmless text)
    (hends : EndsApart before) : Harmless (before ++ text) := by
  refine ⟨?_, ?_⟩
  · rw [List.forall_mem_append]
    exact ⟨hbefore.unquoted, htext.unquoted⟩
  · rw [NamesUnderscored, underscored_append hbefore.unquoted, not_or, List.nil_append,
      underscored_of_endsApart hends]
    exact ⟨hbefore.unnamed, htext.unnamed⟩

theorem Harmless.append_plain
    {before text : List Char} (hbefore : Harmless before) (htext : text.all isPlain = true) :
    Harmless (before ++ text) := by
  refine ⟨?_, ?_⟩
  · rw [List.forall_mem_append]
    exact ⟨hbefore.unquoted, unquoted_of_plain htext⟩
  · rw [NamesUnderscored, underscored_append_of_notMem (underscore_notMem_of_plain htext)]
    exact hbefore.unnamed

theorem namesUnderscored_enclosed
    {front : List Char} (hfront : Harmless front) (hends : EndsApart front) (written : List Char)
    {behind : List Char} (hbehind : '_' ∉ behind) :
    NamesUnderscored (front ++ (written ++ behind)) ↔ NamesUnderscored written := by
  have hunnamed : ¬Underscored EndsApart [] front := hfront.unnamed
  rw [NamesUnderscored, underscored_append hfront.unquoted, or_iff_right hunnamed,
    List.nil_append, underscored_append_of_notMem hbehind, underscored_of_endsApart hends]

/-- A name that a loop binds begins with a letter, and underscores in it begin no other one. -/
theorem harmless_of_isName {name : List Char} (hname : IsName name) : Harmless name := by
  have hword := hname.all_isWord
  refine ⟨fun c hc => ?_, ?_⟩
  · rw [Bool.eq_false_iff]
    intro hquote
    have hapart := (separates_of_isQuote hquote).1
    rw [hword c hc] at hapart
    contradiction
  · rintro ⟨before, after, hsplit, -, hapart⟩
    rw [List.nil_append] at hapart
    rcases List.eq_nil_or_concat before with rfl | ⟨earlier, last, rfl⟩
    · obtain ⟨c, rest, rfl, halpha, -⟩ := hname
      obtain ⟨rfl, -⟩ := List.cons.inj hsplit
      exact absurd halpha (by decide)
    · rw [List.concat_eq_append] at hsplit hapart
      have hlast := hword last (by rw [hsplit]; simp)
      rw [endsApart_of_getLast? List.getLast?_concat, hlast] at hapart
      exact absurd hapart.1 (by decide)

/-- What stands before and behind the expression in a tag holds no such names. -/
theorem Frames.harmless
    {translator front behind : List Char} {meaning : Meaning} (htranslator : Harmless translator)
    (hframes : Frames translator meaning front behind) :
    Harmless front ∧ EndsApart front ∧ '_' ∉ behind := by
  have hends (front : List Char) {last : List Char} (hlast : EndsApart last) (hnil : last ≠ []) :
      EndsApart (front ++ last) := (endsApart_append hnil front).mpr hlast
  have hfor : Harmless "<?py for ".toList := harmless_of_plain (by decide)
  cases hframes with
  | «variable» | branch | elseBranch => exact ⟨harmless_of_plain (by decide), by decide, by decide⟩
  | translatedVariable =>
      have hopen : Harmless "<?= ".toList := harmless_of_plain (by decide)
      exact ⟨(hopen.append htranslator (by decide)).append_plain (by decide),
        hends _ (by decide) (by decide), by decide⟩
  | loop _ hfirst =>
      have hbound := hfor.append (harmless_of_isName hfirst) (by decide)
      exact ⟨hbound.append_plain (by decide), hends _ (by decide) (by decide), by decide⟩
  | pairLoop _ hfirst hsecond =>
      have hbound := hfor.append (harmless_of_isName hfirst) (by decide)
      have hcomma : ", ".toList.all isPlain = true := by decide
      have hboth := (hbound.append_plain hcomma).append
        (harmless_of_isName hsecond) (hends _ (by decide) (by decide))
      exact ⟨hboth.append_plain (by decide), hends _ (by decide) (by decide), by decide⟩

/-- A tag names what begins with an underscore exactly when its expression does so without a sigil;
the sigil alone is what the guard looks for. -/
theorem namesUnderscored_tag_iff
    (translator text written : List Char) (htranslator : Harmless translator)
    (hcode : hostCode translator text = .ok written) :
    ∃ found,
      tokens text = .ok found ∧ written = found.flatMap (Token.rewritten translator) ∧
        ∀ token ∈ found, ∀ expression tag,
          token.expression? = some expression → token.tag? translator = some tag →
            (NamesUnderscored tag ↔ NamesBare expression) := by
  obtain ⟨found, hfound, -, -, rfl⟩ := hostCode_eq_ok_iff.mp hcode
  refine ⟨found, hfound, rfl, fun token _ expression tag hexpression htag => ?_⟩
  obtain ⟨front, inner, behind, hframes, hinner, rfl⟩ := Token.exists_frames hexpression htag
  obtain ⟨hfront, hends, hbehind⟩ := hframes.harmless htranslator
  rw [namesUnderscored_enclosed hfront hends inner hbehind,
    namesUnderscored_hostExpression_iff hinner]

theorem namesUnderscored_tag_iff_loop :
    Harmless "translator".toList ∧
      hostCode "translator".toList
          (marked " foreach $m->_p as $k_ => $v " ++ marked "_ var: $v && _w " ++
            marked " /foreach ") =
        .ok "<?py for k_, v in m._p.items() ?><?= translator(v and _w) ?><?py endfor ?>".toList ∧
      ∃ found,
        tokens (marked " foreach $m->_p as $k_ => $v " ++ marked "_ var: $v && _w " ++
            marked " /foreach ") = .ok found ∧
          "<?py for k_, v in m._p.items() ?><?= translator(v and _w) ?><?py endfor ?>".toList =
            found.flatMap (Token.rewritten "translator".toList) ∧
          ∀ token ∈ found, ∀ expression tag,
            token.expression? = some expression →
              token.tag? "translator".toList = some tag →
                (NamesUnderscored tag ↔ NamesBare expression) := by
  have htranslator : Harmless "translator".toList := harmless_of_plain (by decide)
  have hcode : hostCode "translator".toList
      (marked " foreach $m->_p as $k_ => $v " ++ marked "_ var: $v && _w " ++
        marked " /foreach ") =
      .ok "<?py for k_, v in m._p.items() ?><?= translator(v and _w) ?><?py endfor ?>".toList := by
    decide +kernel
  exact ⟨htranslator, hcode, namesUnderscored_tag_iff _ _ _ htranslator hcode⟩

/-- Without its sigil a private name passes the guard. -/
theorem namesUnderscored_tag_of_bare :
    ∃ token tag,
      tokens (marked " var: $a ~ _s ") = .ok [token] ∧
        hostCode translatorName (marked " var: $a ~ _s ") = .ok tag ∧
        token.meaning = .variable "$a ~ _s".toList ∧ token.tag? translatorName = some tag ∧
        NamesUnderscored tag := by
  have hplain : "<?= a ~ ".toList.all isPlain = true := by decide
  have hclosed : LiteralsClosed ("<?= a ~ ".toList ++ []) :=
    .plain_append (unquoted_of_plain hplain) .nil
  exact ⟨⟨0, marked " var: $a ~ _s ", .variable "$a ~ _s".toList⟩, "<?= a ~ _s ?>".toList,
    by decide +kernel, by decide +kernel, rfl, by decide +kernel, "<?= a ~ ".toList,
    "s ?>".toList, rfl, hclosed, by decide⟩

end Stencil.Directive
