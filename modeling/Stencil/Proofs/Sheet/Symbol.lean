import Stencil.Proofs.Sheet.Stretch

/-!
# The symbols of a style sheet

A sheet consists of strings and of visible characters outside of them, and comments stand apart as
blanks do.  The symbols are written with marks of importance joined to their words, without the
semicolons that end nothing, and with one space where blanks stood, unless punctuation stands on one
side of them.
-/

namespace Stencil.Sheet

open Stencil.Text

/-! ## Symbols -/

/-- A visible character outside of strings and comments, or a string. -/
inductive Symbol where
  | char (c : Char)
  | quoted (text : List Char)
  deriving DecidableEq

def Symbol.text : Symbol → List Char
  | .char c => [c]
  | .quoted text => text

def Symbol.isPunctuation : Symbol → Bool
  | .char c => Sheet.isPunctuation c
  | .quoted _ => false

def symbol? (c : Char) : Option Symbol :=
  (visible? c).map .char

def symbols : Piece Span → List (Option Symbol)
  | .plain stretch => stretch.map symbol?
  | .hit _ .comment => [none]
  | .hit text .quoted => [some (.quoted text)]

/-! ## What is written of the symbols -/

/-- The symbols begin with the letters of the word, the first one behind blanks as `gap` says, and
the others directly behind one another. -/
def spells (gap : Bool) : List Char → List (Bool × Symbol) → Bool
  | [], _ => true
  | letter :: word, (gap', .char c) :: rest =>
    gap' == gap && foldCase c == letter && spells false word rest
  | _ :: _, _ => false

/-- An exclamation mark, blanks and the word for importance. -/
def marksImportance (symbol : Symbol) (rest : List (Bool × Symbol)) : Bool :=
  symbol == .char '!' && spells true importantWord rest

/-- The symbols with the marks of importance joined to their words; `word` is what is left to write
of such a word. -/
def joinFrom : List Char → List (Bool × Symbol) → List (Bool × Symbol)
  | _, [] => []
  | letter :: word, _ :: rest => (false, .char letter) :: joinFrom word rest
  | [], item :: rest =>
    item :: joinFrom (if marksImportance item.2 rest then importantWord else []) rest

/-- A semicolon before a semicolon or a closing brace. -/
def isIdle (symbol : Symbol) (rest : List (Bool × Symbol)) : Bool :=
  symbol == .char ';' && rest.head?.any fun next => next.2 == .char ';' || next.2 == .char '}'

/-- The symbols, without idle semicolons, and with a space where blanks stand between two of them
that are no punctuation. -/
def writtenFrom (last : Option Symbol) : List (Bool × Symbol) → List Char
  | [] => []
  | (gap, symbol) :: rest =>
    space (mayPart Symbol.isPunctuation Symbol.isPunctuation) last gap symbol ++
      ((if isIdle symbol rest then [] else symbol.text) ++ writtenFrom (some symbol) rest)

def printed (last : Option Symbol) (gap : Bool) (items : List (Option Symbol)) : List Char :=
  writtenFrom last (joinFrom [] (apartFrom gap items))

def written (sheet : List Char) : List Char :=
  printed none false ((cut span? sheet).flatMap symbols)

/-! ## Symbols of a stretch -/

theorem char_beq_char (c d : Char) : (Symbol.char c == Symbol.char d) = (c == d) := by
  rw [Bool.eq_iff_iff, beq_iff_eq, beq_iff_eq, Symbol.char.injEq]

theorem symbol?_of_isBlank {c : Char} (hblank : isBlank c) : symbol? c = none := by
  rw [symbol?, visible?_of_isBlank hblank, Option.map_none]

theorem symbol?_of_not_isBlank {c : Char} (hblank : isBlank c = false) :
    symbol? c = some (.char c) := by
  rw [symbol?, visible?_of_not_isBlank hblank, Option.map_some]

theorem apartFrom_map_symbol?
    {gap : List Char} (hgap : AllBlank gap) (before : Bool) (items : List (Option Symbol)) :
    apartFrom before (gap.map symbol? ++ items) = apartFrom (before || !gap.isEmpty) items := by
  have hnone : gap.map symbol? = List.replicate gap.length none :=
    List.map_eq_replicate_iff.mpr fun c hc => symbol?_of_isBlank (hgap c hc)
  rw [hnone, apartFrom_replicate_none]
  cases gap <;> rfl

theorem apartFrom_symbol?_cons
    {c : Char} (hblank : isBlank c = false) (gap : Bool) (items : List (Option Symbol)) :
    apartFrom gap (symbol? c :: items) = (gap, .char c) :: apartFrom false items := by
  rw [symbol?_of_not_isBlank hblank, apartFrom]

/-- No character stands at the beginning. -/
def NoCharFirst (items : List (Option Symbol)) : Prop :=
  ∀ item ∈ items.head?, ∃ text, item = some (.quoted text)

theorem NoCharFirst.apartFrom_eq
    {items : List (Option Symbol)} (hitems : NoCharFirst items) (gap : Bool) :
    apartFrom gap items = [] ∨ ∃ text rest, apartFrom gap items = (gap, .quoted text) :: rest := by
  cases items with
  | nil => exact .inl rfl
  | cons item rest =>
      obtain ⟨text, rfl⟩ := hitems item rfl
      exact .inr ⟨text, _, rfl⟩

theorem NoCharFirst.spells_eq_false
    {items : List (Option Symbol)} (hitems : NoCharFirst items) (gap gap' : Bool) (letter : Char)
    (word : List Char) : spells gap (letter :: word) (apartFrom gap' items) = false := by
  rcases hitems.apartFrom_eq gap' with hnil | ⟨text, rest, hquoted⟩
  · rw [hnil, spells]
    simp
  · rw [hquoted, spells]
    simp

theorem spells_of_gap (word : List Char) (letter : Char) (items : List (Option Symbol)) :
    spells false (letter :: word) (apartFrom true items) = false := by
  induction items with
  | nil => rfl
  | cons item items ih =>
      cases item with
      | none => exact ih
      | some symbol => cases symbol <;> rfl

theorem isSome_afterWord?_cons (letter : Char) (word : List Char) (c : Char) (text : List Char) :
    (afterWord? (letter :: word) (c :: text)).isSome =
      (foldCase c == letter && (afterWord? word text).isSome) := by
  unfold afterWord?
  simp only [List.length_cons, List.take_succ_cons, List.map_cons, List.isPrefixOf_cons_cons]
  cases hletter : letter == foldCase c <;> simp_all [BEq.comm]

theorem spells_false_eq
    {items : List (Option Symbol)} (hitems : NoCharFirst items) {word : List Char}
    (hword : word.all Char.isLower) (text : List Char) :
    spells false word (apartFrom false (text.map symbol? ++ items)) =
      (afterWord? word text).isSome := by
  induction word generalizing text with
  | nil => simp [spells, afterWord?]
  | cons letter word ih =>
      rw [List.all_cons, Bool.and_eq_true] at hword
      cases text with
      | nil =>
          rw [List.map_nil, List.nil_append, hitems.spells_eq_false]
          simp [afterWord?]
      | cons c text =>
          rw [List.map_cons, List.cons_append, isSome_afterWord?_cons]
          cases hblank : isBlank c with
          | true =>
              have hletter : (foldCase c == letter) = false := by
                rw [beq_eq_false_iff_ne]
                rintro rfl
                rw [isBlank_eq_false_of_isWord (isWord_of_isLower_foldCase hword.1)] at hblank
                contradiction
              rw [symbol?_of_isBlank hblank, apartFrom, spells_of_gap, hletter, Bool.false_and]
          | false =>
              rw [apartFrom_symbol?_cons hblank, spells, ih hword.2, beq_self_eq_true,
                Bool.true_and]

/-- The symbols behind an exclamation mark spell the word as the stretch does. -/
theorem spells_important_eq
    {items : List (Option Symbol)} (hitems : NoCharFirst items) (rest : List Char) :
    spells true importantWord (apartFrom false (rest.map symbol? ++ items)) =
      (spacedImportant? ('!' :: rest)).isSome := by
  obtain ⟨gap, hgap, hlength, hrest⟩ := exists_eq_append_skipBlanks rest
  have hfirst := noBlankFirst_skipBlanks rest
  have hmark : spacedImportant? ('!' :: rest) =
      if gap = [] then none
      else (afterWord? importantWord (skipBlanks rest)).map
        fun _ => ⟨1 + gap.length + importantWord.length, ()⟩ := by
    have hdrop : rest.drop gap.length = skipBlanks rest := by
      nth_rewrite 1 [hrest]
      exact List.drop_left
    rw [spacedImportant?, ← hlength, hdrop]
    simp
  generalize skipBlanks rest = visible at hrest hfirst hmark
  have hword : importantWord = 'i' :: "mportant".toList := rfl
  rw [hmark, hrest, List.map_append, List.append_assoc, apartFrom_map_symbol? hgap]
  cases visible with
  | nil =>
      rw [List.map_nil, List.nil_append, hword, hitems.spells_eq_false]
      split <;> rfl
  | cons c text =>
      have hblank : isBlank c = false := hfirst c rfl
      rw [List.map_cons, List.cons_append, apartFrom_symbol?_cons hblank, hword, spells,
        spells_false_eq hitems (by decide)]
      by_cases hnil : gap = []
      · rw [hnil, if_pos rfl]
        rfl
      · rw [if_neg hnil, Option.isSome_map, isSome_afterWord?_cons,
          List.isEmpty_eq_false_iff.mpr hnil]
        rfl

theorem any_head?_apartFrom
    {items : List (Option Symbol)} (hitems : NoCharFirst items) (gap : Bool) (text : List Char) :
    ((apartFrom gap (text.map symbol? ++ items)).head?.any fun next =>
        next.2 == .char ';' || next.2 == .char '}') = leadsTo endsDeclaration text := by
  obtain ⟨blanks, hblanks, -, htext⟩ := exists_eq_append_skipBlanks text
  have hfirst := noBlankFirst_skipBlanks text
  rw [leadsTo]
  generalize skipBlanks text = visible at htext hfirst
  rw [htext, List.map_append, List.append_assoc, apartFrom_map_symbol? hblanks]
  cases visible with
  | nil =>
      rcases hitems.apartFrom_eq (gap || !blanks.isEmpty) with hnil | ⟨text, rest, hquoted⟩
      · rw [List.map_nil, List.nil_append, hnil]
        rfl
      · rw [List.map_nil, List.nil_append, hquoted]
        rfl
  | cons c rest =>
      have hc : isBlank c = false := hfirst c rfl
      rw [List.map_cons, List.cons_append, apartFrom_symbol?_cons hc, List.head?_cons,
        Option.any_some, char_beq_char, char_beq_char]
      rfl

/-! ## What is written of a stretch -/

theorem head?_joinFrom (items : List (Bool × Symbol)) :
    (joinFrom [] items).head? = items.head? := by
  cases items <;> rfl

theorem isIdle_joinFrom (symbol : Symbol) (items : List (Bool × Symbol)) :
    isIdle symbol (joinFrom [] items) = isIdle symbol items := by
  rw [isIdle, head?_joinFrom, isIdle]

variable {items : List (Option Symbol)}

theorem printed_cons
    (hitems : NoCharFirst items) {c : Char} (hblank : isBlank c = false) {rest : List Char}
    (hnone : spacedImportant? (c :: rest) = none) (last : Option Symbol) (gap : Bool) :
    printed last gap ((c :: rest).map symbol? ++ items) =
      space (mayPart Symbol.isPunctuation Symbol.isPunctuation) last gap (.char c) ++
        ((if c == ';' && leadsTo endsDeclaration rest then [] else [c]) ++
          printed (some (.char c)) false (rest.map symbol? ++ items)) := by
  have hmark : marksImportance (.char c) (apartFrom false (rest.map symbol? ++ items)) = false := by
    rw [marksImportance, spells_important_eq hitems, Bool.and_eq_false_iff]
    by_cases hc : c = '!'
    · subst hc
      exact .inr (by rw [hnone]; rfl)
    · exact .inl (by simpa using hc)
  have hidle : isIdle (.char c) (apartFrom false (rest.map symbol? ++ items)) =
      (c == ';' && leadsTo endsDeclaration rest) := by
    rw [isIdle, any_head?_apartFrom hitems, char_beq_char]
  rw [printed, List.map_cons, List.cons_append, apartFrom_symbol?_cons hblank, joinFrom, hmark,
    if_neg Bool.false_ne_true, writtenFrom, isIdle_joinFrom, hidle]
  rfl

theorem exists_apartFrom_append
    {word : List Char} (hword : ∀ c ∈ word, isBlank c = false) (hnonempty : word ≠ []) (gap : Bool)
    (items : List (Option Symbol)) :
    ∃ front, front.length = word.length ∧
      apartFrom gap (word.map symbol? ++ items) = front ++ apartFrom false items := by
  induction word generalizing gap with
  | nil => exact absurd rfl hnonempty
  | cons c word ih =>
      obtain ⟨hc, hlater⟩ := List.forall_mem_cons.mp hword
      rw [List.map_cons, List.cons_append, apartFrom_symbol?_cons hc]
      by_cases hend : word = []
      · subst hend
        exact ⟨[(gap, .char c)], rfl, rfl⟩
      · obtain ⟨front, hlength, hfront⟩ := ih hlater hend false
        refine ⟨(gap, .char c) :: front, congrArg Nat.succ hlength, ?_⟩
        rw [hfront, List.cons_append]

theorem joinFrom_append
    {word : List Char} {front : List (Bool × Symbol)} (hlength : front.length = word.length)
    (items : List (Bool × Symbol)) :
    joinFrom word (front ++ items) = word.map (fun c => (false, .char c)) ++ joinFrom [] items := by
  induction word generalizing front with
  | nil =>
      obtain rfl := List.eq_nil_of_length_eq_zero hlength
      rfl
  | cons letter word ih =>
      obtain ⟨item, front, rfl⟩ := List.exists_cons_of_length_eq_add_one hlength
      rw [List.cons_append, joinFrom, ih (Nat.succ.inj hlength), List.map_cons, List.cons_append]

theorem writtenFrom_word
    {word : List Char} (hword : ';' ∉ word) {c : Char} (hc : c ≠ ';') (last : Option Symbol)
    (items : List (Bool × Symbol)) :
    writtenFrom last ((word ++ [c]).map (fun d => (false, .char d)) ++ items) =
      word ++ c :: writtenFrom (some (.char c)) items := by
  have hletter {d : Char} (hd : d ≠ ';') (last : Option Symbol) (rest : List (Bool × Symbol)) :
      writtenFrom last ((false, .char d) :: rest) = d :: writtenFrom (some (.char d)) rest := by
    rw [writtenFrom, isIdle, char_beq_char, beq_eq_false_iff_ne.mpr hd]
    rfl
  induction word generalizing last with
  | nil => exact hletter hc last items
  | cons d word ih =>
      rw [List.mem_cons, not_or] at hword
      rw [List.cons_append, List.map_cons, List.cons_append, hletter (Ne.symm hword.1),
        ih hword.2, List.cons_append]

theorem writtenFrom_important (last : Option Symbol) (items : List (Bool × Symbol)) :
    writtenFrom last (importantWord.map (fun c => (false, .char c)) ++ items) =
      importantWord ++ writtenFrom (some (.char 't')) items := by
  have hword : importantWord = "importan".toList ++ ['t'] := rfl
  rw [hword, writtenFrom_word (by decide) (by decide), List.append_assoc]
  rfl

/-- A mark of importance is joined to its word. -/
theorem printed_append_of_spacedImportant
    (hitems : NoCharFirst items) {found : List Char} (hspaced : SpacedImportant found)
    (behind : List Char) (last : Option Symbol) (gap : Bool) :
    printed last gap ((found ++ behind).map symbol? ++ items) =
      space (mayPart Symbol.isPunctuation Symbol.isPunctuation) last gap (.char '!') ++
        ('!' :: importantWord ++
          printed (some (.char 't')) false (behind.map symbol? ++ items)) := by
  obtain ⟨blanks, spelled, hnonempty, hblanks, hspells, rfl⟩ := hspaced
  have hsome := spacedImportant?_append
    ⟨blanks, spelled, hnonempty, hblanks, hspells, rfl⟩ behind
  have hspelled := solid_of_spells_important hspells
  have hword : spelled ≠ [] := by
    rintro rfl
    exact List.cons_ne_nil _ _ hspells.symm
  obtain ⟨front, hlength, hfront⟩ := exists_apartFrom_append (fun c hc => (hspelled c hc).1) hword
    (false || !blanks.isEmpty) (behind.map symbol? ++ items)
  have hmark : marksImportance (.char '!')
      (apartFrom false ((blanks ++ spelled ++ behind).map symbol? ++ items)) = true := by
    rw [marksImportance, spells_important_eq hitems, ← List.cons_append, hsome]
    rfl
  have hapart : apartFrom false ((blanks ++ spelled ++ behind).map symbol? ++ items) =
      front ++ apartFrom false (behind.map symbol? ++ items) := by
    rw [List.map_append, List.map_append, List.append_assoc, List.append_assoc,
      apartFrom_map_symbol? hblanks, hfront]
  rw [printed, List.cons_append, List.map_cons, List.cons_append, apartFrom_symbol?_cons rfl,
    joinFrom, hmark, if_pos rfl, hapart, joinFrom_append (hlength.trans hspells.length_eq),
    writtenFrom, writtenFrom_important]
  simp [isIdle, Symbol.text, printed]

end Stencil.Sheet
