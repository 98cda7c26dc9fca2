import Stencil.Proofs.Sheet.Symbol
import Stencil.Proofs.Sheet.Minify

/-!
# A style sheet as it is written

Stretch by stretch a sheet is made small to what is written of its symbols.  A string in front of a
stretch, or the beginning of the sheet, decides what becomes of the blanks there, and so does what
stands behind it.
-/

namespace Stencil.Sheet

open Stencil.Text

variable {items : List (Option Symbol)} {later : List Char}

/-! ## Stretch by stretch -/

/-- No blanks are written behind punctuation, nor at the beginning. -/
def isOpen (last : Option Symbol) : Bool :=
  last.any fun symbol => !symbol.isPunctuation

/-- What a stretch is made small to behind the symbol. -/
def tightenBehind (last : Option Symbol) (stretch : List Char) : List Char :=
  if isOpen last then tighten stretch else tighten (skipBlanks stretch)

theorem space_mayPart (last : Option Symbol) (gap : Bool) (c : Char) :
    space (mayPart Symbol.isPunctuation Symbol.isPunctuation) last gap (.char c) =
      if gap && isOpen last && !isPunctuation c then [' '] else [] := by
  cases last with
  | none => simp [space, isOpen]
  | some symbol => simp [space, isOpen, mayPart, Symbol.isPunctuation, Bool.and_assoc]

/-- The items are written as the text behind a stretch, without the blanks at its end. -/
structure PrintedAs (items : List (Option Symbol)) (text : List Char) : Prop where
  noCharFirst : NoCharFirst items
  printed : ∀ last gap, printed last gap items =
    trimEnd ((if gap && isOpen last then [' '] else []) ++ text)

theorem printedAs_nil : PrintedAs [] [] where
  noCharFirst := by simp [NoCharFirst]
  printed := by
    intro last gap
    split <;> rfl

theorem exists_tighten_cons {c : Char} (hsolid : Solid c) (rest : List Char) :
    ∃ rest', tighten (c :: rest) = c :: rest' := by
  cases hmark : spacedImportant? (c :: rest) with
  | none => exact ⟨_, tighten_cons_of_solid hsolid hmark⟩
  | some hit =>
      obtain ⟨found, behind, hspaced, heq⟩ := exists_spacedImportant_of_spacedImportant? hmark
      rw [heq, tighten_append_of_spacedImportant hspaced]
      obtain ⟨gap, spelled, -, -, -, rfl⟩ := hspaced
      obtain ⟨rfl, -⟩ := List.cons.inj heq
      exact ⟨_, rfl⟩

theorem tightenBehind_append
    {gap text : List Char} (hgap : AllBlank gap) (htext : NoBlankFirst text)
    (last : Option Symbol) :
    tightenBehind last (gap ++ text) =
      (if !gap.isEmpty && isOpen last && !leadsTo isPunctuation text then [' '] else []) ++
        tighten text := by
  rw [tightenBehind, skipBlanks_append hgap htext, tighten_append hgap htext]
  cases isOpen last <;> simp

/-- Behind each symbol the stretch is written as it is made small there. -/
def WritesStretch (items : List (Option Symbol)) (later stretch : List Char) : Prop :=
  ∀ last, printed last false (stretch.map symbol? ++ items) =
    trimEnd (tightenBehind last stretch ++ later)

/-- Behind blanks or not, the stretch that begins with the character is written as it is made
small. -/
def WritesFrom (items : List (Option Symbol)) (later : List Char) (c : Char) (rest : List Char) :
    Prop :=
  ∀ last gap, printed last gap ((c :: rest).map symbol? ++ items) =
    space (mayPart Symbol.isPunctuation Symbol.isPunctuation) last gap (.char c) ++
      trimEnd (tighten (c :: rest) ++ later)

/-- A stretch is written as it is made small if the visible part of it is. -/
theorem WritesFrom.writesStretch
    (hitems : PrintedAs items later) {stretch : List Char}
    (hvisible : ∀ c rest, skipBlanks stretch = c :: rest → WritesFrom items later c rest) :
    WritesStretch items later stretch := by
  intro last
  obtain ⟨gap, hgap, -, hstretch⟩ := exists_eq_append_skipBlanks stretch
  have hfirst := noBlankFirst_skipBlanks stretch
  generalize skipBlanks stretch = text at hstretch hfirst hvisible
  have hprinted : printed last false (stretch.map symbol? ++ items) =
      printed last (!gap.isEmpty) (text.map symbol? ++ items) := by
    rw [hstretch, printed, List.map_append, List.append_assoc, apartFrom_map_symbol? hgap,
      Bool.false_or, printed]
  rw [hprinted, hstretch, tightenBehind_append hgap hfirst]
  cases text with
  | nil =>
      have hnone : leadsTo isPunctuation [] = false := rfl
      rw [List.map_nil, List.nil_append, hitems.printed, hnone, tighten_nil, Bool.not_false,
        Bool.and_true, List.append_nil]
  | cons c rest =>
      have hc : isBlank c = false := hfirst c rfl
      rw [hvisible c rest rfl, space_mayPart, leadsTo_of_not_isBlank hc, List.append_assoc]
      split
      next hspace =>
        rw [Bool.and_eq_true, Bool.not_eq_true'] at hspace
        obtain ⟨rest', hrest'⟩ := exists_tighten_cons ⟨hc, hspace.2⟩ rest
        have hsolid : ¬ AllBlank (tighten (c :: rest) ++ later) := by
          rw [hrest']
          intro hall
          rw [hall c List.mem_cons_self] at hc
          contradiction
        rw [trimEnd_append hsolid]
      next => rfl

theorem WritesStretch.cons_of_solid
    (hitems : NoCharFirst items) {c : Char} (hsolid : Solid c) {rest : List Char}
    (hnone : spacedImportant? (c :: rest) = none) (hrest : WritesStretch items later rest) :
    WritesFrom items later c rest := by
  intro last gap
  have hkept : (c == ';') = false := by
    rw [beq_eq_false_iff_ne]
    rintro rfl
    exact absurd hsolid.2 (by decide)
  have hopen : isOpen (some (.char c)) = true := by
    simp [isOpen, Symbol.isPunctuation, hsolid.2]
  rw [printed_cons hitems hsolid.1 hnone, hrest, tightenBehind, hopen, hkept,
    tighten_cons_of_solid hsolid hnone, List.cons_append, trimEnd_cons hsolid.1]
  rfl

theorem WritesStretch.cons_of_isPunctuation
    (hitems : NoCharFirst items) {c : Char} (hc : isPunctuation c) {rest : List Char}
    (hnone : spacedImportant? (c :: rest) = none) (hrest : WritesStretch items later rest) :
    WritesFrom items later c rest := by
  intro last gap
  have hblank := isBlank_eq_false_of_isPunctuation hc
  have hclosed : isOpen (some (.char c)) = false := by
    simp [isOpen, Symbol.isPunctuation, hc]
  rw [printed_cons hitems hblank hnone, hrest, tightenBehind, hclosed,
    if_neg Bool.false_ne_true]
  by_cases hsemicolon : c = ';'
  · subst hsemicolon
    rw [tighten_semicolon, beq_self_eq_true, Bool.true_and]
    cases leadsTo endsDeclaration rest with
    | true => rfl
    | false =>
        rw [if_neg Bool.false_ne_true, List.append_assoc, List.singleton_append,
          List.singleton_append, trimEnd_cons hblank]
  · rw [tighten_cons_of_isPunctuation hc hsemicolon, List.cons_append, trimEnd_cons hblank,
      beq_eq_false_iff_ne.mpr hsemicolon]
    rfl

theorem WritesStretch.append_of_spacedImportant
    (hitems : NoCharFirst items) {found behind rest : List Char} {c : Char}
    (hspaced : SpacedImportant found) (heq : c :: rest = found ++ behind)
    (hbehind : WritesStretch items later behind) : WritesFrom items later c rest := by
  intro last gap
  have hc : c = '!' := by
    obtain ⟨gap, spelled, -, -, -, rfl⟩ := hspaced
    exact (List.cons.inj heq).1
  have hlast : NoBlankFirst ('!' :: importantWord).reverse := noBlankFirst_cons rfl
  have hopen : isOpen (some (.char 't')) = true := rfl
  rw [heq, printed_append_of_spacedImportant hitems hspaced, hc, hbehind, tightenBehind, hopen,
    if_pos rfl, tighten_append_of_spacedImportant hspaced, List.append_assoc,
    trimEnd_append_of_noBlankFirst_reverse hlast]

theorem writesFrom_of_shorter
    (hitems : NoCharFirst items) {c : Char} (hblank : isBlank c = false) {rest : List Char}
    (hshorter : ∀ text, text.length ≤ rest.length → WritesStretch items later text) :
    WritesFrom items later c rest := by
  cases hmark : spacedImportant? (c :: rest) with
  | none =>
      have hrest := hshorter rest le_rfl
      cases hpunctuation : isPunctuation c with
      | false => exact hrest.cons_of_solid hitems ⟨hblank, hpunctuation⟩ hmark
      | true => exact hrest.cons_of_isPunctuation hitems hpunctuation hmark
  | some hit =>
      obtain ⟨found, behind, hspaced, heq⟩ := exists_spacedImportant_of_spacedImportant? hmark
      have hbehind : behind.length ≤ rest.length := by
        have hpositive := List.length_pos_iff.mpr hspaced.ne_nil
        have hlength := congrArg List.length heq
        rw [List.length_cons, List.length_append] at hlength
        omega
      exact (hshorter behind hbehind).append_of_spacedImportant hitems hspaced heq

/-- Every stretch is written as it is made small. -/
theorem PrintedAs.writesStretch (hitems : PrintedAs items later) (stretch : List Char) :
    WritesStretch items later stretch := by
  induction hlength : stretch.length using Nat.strong_induction_on generalizing stretch with
  | _ length ih =>
      subst hlength
      apply WritesFrom.writesStretch hitems
      intro c rest hskip
      have hfirst := noBlankFirst_skipBlanks stretch
      have hshort := (skipBlanks_suffix stretch).length_le
      rw [hskip] at hfirst hshort
      refine writesFrom_of_shorter hitems.noCharFirst (hfirst c rfl) fun text htext => ?_
      exact ih text.length (lt_of_le_of_lt htext hshort) text rfl

/-! ## The whole sheet -/

theorem printedAs_quoted
    {found : List Char} (hquoted : IsQuoted found)
    (hrest : printed (some (.quoted found)) false items = trimEnd later) :
    PrintedAs (some (.quoted found) :: items) (found ++ later) where
  noCharFirst := by
    intro item hitem
    exact ⟨found, (Option.some.inj hitem).symm⟩
  printed := by
    intro last gap
    have hspace : space (mayPart Symbol.isPunctuation Symbol.isPunctuation) last gap
        (.quoted found) = if gap && isOpen last then [' '] else [] := by
      cases last <;> simp [space, isOpen, mayPart, Symbol.isPunctuation]
    have hlast := hquoted.noBlankFirst_reverse (if gap && isOpen last then [' '] else [])
    have hmark : marksImportance (.quoted found) (apartFrom false items) = false := rfl
    have hidle (rest : List (Bool × Symbol)) : isIdle (.quoted found) rest = false := rfl
    rw [printed, apartFrom, joinFrom, hmark, if_neg Bool.false_ne_true, writtenFrom, hidle,
      if_neg Bool.false_ne_true, hspace, ← printed, hrest, ← List.append_assoc, ← List.append_assoc,
      trimEnd_append_of_noBlankFirst_reverse hlast]
    rfl

theorem flatMap_symbols_mergeFrom (held : List Char) (pieces : List (Piece Span)) :
    (mergeFrom held pieces).flatMap symbols =
      held.reverse.map symbol? ++ pieces.flatMap symbols := by
  induction pieces generalizing held with
  | nil => simp [mergeFrom, symbols]
  | cons piece pieces ih =>
      cases piece with
      | plain stretch => simp [mergeFrom, symbols, ih]
      | hit found value => simp [mergeFrom, symbols, ih]

/-- A comment stands apart as the space does that is put in its place. -/
theorem flatMap_symbols_blanked (pieces : List (Piece Span)) :
    (pieces.map blanked).flatMap symbols = pieces.flatMap symbols := by
  rw [List.flatMap_map]
  congr 1
  funext piece
  cases piece with
  | plain stretch => rfl
  | hit found value => cases value <;> rfl

theorem flatMap_symbols_cut_blankComments (sheet : List Char) :
    (cut span? (blankComments sheet)).flatMap symbols = (cut span? sheet).flatMap symbols := by
  have hsettled := settled_cut bounded_span? sheet
  have hblanked := settled_of_rewritten hsettled (rewritten_blanked hsettled)
  rw [blankComments_eq, hblanked.cut_eq, flatMap_symbols_mergeFrom, flatMap_symbols_blanked]
  rfl

theorem exists_printed_pieces
    {pieces : List (Piece Span)} (halternates : Alternates pieces)
    (hquoted : ∀ found value, .hit found value ∈ pieces → value = .quoted ∧ IsQuoted found) :
    ∃ stretch others, pieces = .plain stretch :: others ∧
      NoBlankFirst (joined (others.map tightened)) ∧
      ∀ last, printed last false (pieces.flatMap symbols) =
        trimEnd (tightenBehind last stretch ++ joined (others.map tightened)) := by
  induction halternates with
  | last stretch =>
      exact ⟨stretch, [], rfl, by simp [NoBlankFirst], printedAs_nil.writesStretch stretch⟩
  | @next stretch found value pieces hrest ih =>
      obtain ⟨rfl, hfound⟩ := hquoted found value (by simp)
      obtain ⟨stretch', others, rfl, -, hprinted⟩ := ih fun found' value' hmem =>
        hquoted found' value' (List.mem_cons_of_mem _ (List.mem_cons_of_mem _ hmem))
      refine ⟨stretch, .hit found .quoted :: .plain stretch' :: others, rfl, ?_, ?_⟩
      · exact hfound.noBlankFirst_append _
      · exact (printedAs_quoted hfound (hprinted (some (.quoted found)))).writesStretch stretch

/-- A sheet is minified to its strings and visible characters, with marks of importance joined to
their words, without idle semicolons, and with a space where blanks or comments stand between two
symbols that are no punctuation. -/
theorem minify_eq_written (sheet : List Char) : minify sheet = written sheet := by
  have hsettled : Settled span? (cut span? (blankComments sheet)) := settled_cut bounded_span? _
  have hquoted : ∀ found value, .hit found value ∈ cut span? (blankComments sheet) →
      value = .quoted ∧ IsQuoted found := by
    intro found value hmem
    obtain rfl := quoted_of_mem_cut_blankComments hmem
    rcases isQuoted_or_isComment_of_mem hsettled hmem with hfound | ⟨hcomment, -⟩
    · exact hfound
    · contradiction
  obtain ⟨stretch, others, hcut, hfirst, hprinted⟩ :=
    exists_printed_pieces (alternates_cut _) hquoted
  have hclosed : isOpen none = false := rfl
  calc
    minify sheet = trim (tighten stretch ++ joined (others.map tightened)) := by
      rw [minify_eq, hcut]
      rfl
    _ = trimEnd (tighten (skipBlanks stretch) ++ joined (others.map tightened)) := by
      rw [trim, skipBlanks_append_of_noBlankFirst hfirst, skipBlanks_tighten]
    _ = printed none false ((cut span? (blankComments sheet)).flatMap symbols) := by
      rw [hprinted, tightenBehind, hclosed, if_neg Bool.false_ne_true]
    _ = written sheet := by rw [flatMap_symbols_cut_blankComments, written]

example :
    minify "a b > c \x7b d:e/**/f !/**/ Important ; ; content : ' ;' ; \x7d ".toList =
      "a b>c\x7bd:e f !important;content:' ;'\x7d".toList := by
  decide +kernel

end Stencil.Sheet
