import Stencil.ServerCode
import Stencil.Proofs.Text.Blank
import Stencil.Proofs.Text.Search
import Stencil.Proofs.Text.Word

/-!
# What begins server code

A segment of server code begins with one of three marks: a processing instruction, a percent tag
that is closed somewhere behind, or the opening tag of a script in a server language.  The marks are
described by how they are written, and the recogniser finds a segment exactly where one of them
stands.
-/

namespace Stencil.ServerCode

open Stencil.Text

def NoWordFirst (text : List Char) : Prop :=
  ∀ c ∈ text.head?, isWord c = false

/-- A server language is named, perhaps with a quote before the name. -/
def NamesLanguage (text : List Char) : Prop :=
  ∃ quote name after, text = quote ++ (name ++ after) ∧
    (quote = [] ∨ quote = ['"'] ∨ quote = ['\'']) ∧
    (Spells "php".toList name ∨ Spells "python".toList name) ∧ NoWordFirst after

/-- The word for the language, an equals sign and the name of a server language. -/
def SetsLanguage (text : List Char) : Prop :=
  ∃ word gap behind value, text = word ++ (gap ++ '=' :: (behind ++ value)) ∧
    Spells "language".toList word ∧ AllBlank gap ∧ AllBlank behind ∧ NamesLanguage value

/-- The inside of a tag sets a server language, not in the middle of a word. -/
def HasLanguage (inside : List Char) : Prop :=
  ∃ before setting, inside = before ++ setting ∧
    (∃ c ∈ before.getLast?, isWord c = false) ∧ SetsLanguage setting

/-- Server code begins here. -/
inductive BeginsCode : List Char → Prop where
  | instruction {word rest : List Char}
      (hword : Spells "php".toList word ∨ Spells "py".toList word) :
      BeginsCode ('<' :: '?' :: (word ++ rest))
  | mark {c : Char} {rest : List Char} (hc : c = '=' ∨ c = '#' ∨ isBlank c = true) :
      BeginsCode ('<' :: '?' :: c :: rest)
  | percent {rest : List Char} (hclosed : ['%', '>'] <:+: rest) :
      BeginsCode ('<' :: '%' :: rest)
  | script {word inside rest : List Char} (hword : Spells "script".toList word)
      (hinside : '>' ∉ inside) (hlanguage : HasLanguage inside) (hboundary : NoWordFirst inside) :
      BeginsCode ('<' :: (word ++ (inside ++ '>' :: rest)))

/-! ## Processing instructions -/

theorem isSome_instructionWidth?_iff {text : List Char} :
    (instructionWidth? text).isSome ↔
      (∃ word rest, (Spells "php".toList word ∨ Spells "py".toList word) ∧ text = word ++ rest) ∨
      ∃ c rest, (c = '=' ∨ c = '#' ∨ isBlank c = true) ∧ text = c :: rest := by
  have hphp := @isSome_afterWord?_iff "php".toList text
  have hpy := @isSome_afterWord?_iff "py".toList text
  unfold instructionWidth?
  split
  next hword =>
    obtain ⟨word, rest, hspells, htext⟩ := hphp.mp hword
    exact iff_of_true rfl (.inl ⟨word, rest, .inl hspells, htext⟩)
  next hnotPhp =>
    split
    next hword =>
      obtain ⟨word, rest, hspells, htext⟩ := hpy.mp hword
      exact iff_of_true rfl (.inl ⟨word, rest, .inr hspells, htext⟩)
    next hnotPy =>
      have hnoWord : ¬ ∃ word rest,
          (Spells "php".toList word ∨ Spells "py".toList word) ∧ text = word ++ rest := by
        rintro ⟨word, rest, hspells | hspells, htext⟩
        · exact hnotPhp (hphp.mpr ⟨word, rest, hspells, htext⟩)
        · exact hnotPy (hpy.mpr ⟨word, rest, hspells, htext⟩)
      rw [or_iff_right hnoWord]
      cases text with
      | nil => simp
      | cons c rest =>
          by_cases hmark : c = '=' ∨ c = '#'
          · rcases hmark with rfl | rfl <;> simp
          · rw [not_or] at hmark
            by_cases hblank : isBlank c = true <;> simp [hmark.1, hmark.2, hblank]

/-! ## Scripts -/

theorem wordBoundary_true_iff {text : List Char} :
    wordBoundary true text = true ↔ NoWordFirst text := by
  cases text <;> simp [wordBoundary, NoWordFirst]

theorem exists_cons_of_names
    {name : List Char} (hname : Spells "php".toList name ∨ Spells "python".toList name) :
    ∃ c rest, name = c :: rest ∧ isWord c := by
  rcases hname with hname | hname
  · exact hname.exists_cons (by decide) (by decide)
  · exact hname.exists_cons (by decide) (by decide)

theorem NamesLanguage.noBlankFirst {text : List Char} (hnames : NamesLanguage text) :
    NoBlankFirst text := by
  obtain ⟨quote, name, after, rfl, hquote, hname, -⟩ := hnames
  obtain ⟨c, rest, rfl, hc⟩ := exists_cons_of_names hname
  have hblank : isBlank c = false := isBlank_eq_false_of_isWord hc
  rcases hquote with rfl | rfl | rfl
  · simpa [NoBlankFirst] using hblank
  · simp [NoBlankFirst, isBlank]
  · simp [NoBlankFirst, isBlank]

theorem any_language_iff {bare : List Char} :
    (["php".toList, "python".toList].any fun language =>
        match afterWord? language bare with
        | some rest => wordBoundary true rest
        | none => false) = true ↔
      ∃ name after, bare = name ++ after ∧
        (Spells "php".toList name ∨ Spells "python".toList name) ∧ NoWordFirst after := by
  have hlanguage : ∀ language : List Char,
      (match afterWord? language bare with
        | some rest => wordBoundary true rest
        | none => false) = true ↔
        ∃ name after, bare = name ++ after ∧ Spells language name ∧ NoWordFirst after := by
    intro language
    constructor
    · intro hnamed
      split at hnamed
      next rest hrest =>
        obtain ⟨name, hname, rfl⟩ := afterWord?_eq_some_iff.mp hrest
        exact ⟨name, rest, rfl, hname, wordBoundary_true_iff.mp hnamed⟩
      next => contradiction
    · rintro ⟨name, after, rfl, hname, hafter⟩
      rw [afterWord?_eq_some_iff.mpr ⟨name, hname, rfl⟩]
      exact wordBoundary_true_iff.mpr hafter
  simp only [List.any_cons, List.any_nil, Bool.or_false, Bool.or_eq_true, hlanguage]
  grind

theorem namesServerLanguage_iff {text : List Char} :
    namesServerLanguage text = true ↔ NamesLanguage text := by
  constructor
  · intro hnames
    unfold namesServerLanguage at hnames
    split at hnames
    next rest =>
      obtain ⟨name, after, rfl, hname, hafter⟩ := any_language_iff.mp hnames
      exact ⟨['"'], name, after, rfl, .inr (.inl rfl), hname, hafter⟩
    next rest =>
      obtain ⟨name, after, rfl, hname, hafter⟩ := any_language_iff.mp hnames
      exact ⟨['\''], name, after, rfl, .inr (.inr rfl), hname, hafter⟩
    next =>
      obtain ⟨name, after, rfl, hname, hafter⟩ := any_language_iff.mp hnames
      exact ⟨[], name, after, rfl, .inl rfl, hname, hafter⟩
  · rintro ⟨quote, name, after, rfl, hquote, hname, hafter⟩
    have hnamed := any_language_iff.mpr ⟨name, after, rfl, hname, hafter⟩
    rcases hquote with rfl | rfl | rfl
    · -- Without a quote the name comes first, and it begins with a letter.
      obtain ⟨c, rest, hcons, hc⟩ := exists_cons_of_names hname
      rw [hcons] at hnamed
      rw [hcons, List.nil_append]
      unfold namesServerLanguage
      split
      next heq =>
        rw [(List.cons.inj heq).1] at hc
        contradiction
      next heq =>
        rw [(List.cons.inj heq).1] at hc
        contradiction
      next => exact hnamed
    · exact hnamed
    · exact hnamed

theorem setsServerLanguage_iff {text : List Char} :
    setsServerLanguage text = true ↔ SetsLanguage text := by
  constructor
  · intro hsets
    unfold setsServerLanguage at hsets
    split at hsets
    next => contradiction
    next rest hrest =>
      obtain ⟨word, hword, rfl⟩ := afterWord?_eq_some_iff.mp hrest
      obtain ⟨gap, hgap, -, hrest⟩ := exists_eq_append_skipBlanks rest
      split at hsets
      next later hlater =>
        obtain ⟨behind, hbehind, -, hvalue⟩ := exists_eq_append_skipBlanks later
        refine ⟨word, gap, behind, skipBlanks later, ?_, hword, hgap, hbehind,
          namesServerLanguage_iff.mp hsets⟩
        rw [← hvalue, ← hlater, ← hrest]
      next => contradiction
  · rintro ⟨word, gap, behind, value, rfl, hword, hgap, hbehind, hvalue⟩
    have hsign : NoBlankFirst ('=' :: (behind ++ value)) := by simp [NoBlankFirst, isBlank]
    unfold setsServerLanguage
    rw [afterWord?_eq_some_iff.mpr ⟨word, hword, rfl⟩]
    simp only [skipBlanks_append hgap hsign, skipBlanks_append hbehind hvalue.noBlankFirst]
    exact namesServerLanguage_iff.mpr hvalue

theorem SetsLanguage.exists_cons {text : List Char} (hsets : SetsLanguage text) :
    ∃ c rest, text = c :: rest ∧ isWord c := by
  obtain ⟨word, gap, behind, value, rfl, hword, -⟩ := hsets
  obtain ⟨c, rest, rfl, hc⟩ := hword.exists_cons (by decide) (by decide)
  exact ⟨c, _, rfl, hc⟩

theorem hasServerLanguage_iff {before : Bool} {text : List Char} :
    hasServerLanguage before text = true ↔
      ∃ passed setting, text = passed ++ setting ∧
        (passed.getLast?.map isWord).getD before = false ∧ SetsLanguage setting := by
  induction text generalizing before with
  | nil =>
      simp only [hasServerLanguage, Bool.false_eq_true, false_iff]
      rintro ⟨passed, setting, hnil, -, hsets⟩
      obtain ⟨c, rest, rfl, -⟩ := hsets.exists_cons
      simp at hnil
  | cons c rest ih =>
      rw [hasServerLanguage, Bool.or_eq_true, Bool.and_eq_true, setsServerLanguage_iff, ih]
      constructor
      · rintro (⟨hboundary, hsets⟩ | ⟨passed, setting, rfl, hpassed, hsets⟩)
        · obtain ⟨d, later, hcons, hd⟩ := hsets.exists_cons
          rw [(List.cons.inj hcons).1, wordBoundary, hd] at hboundary
          exact ⟨[], c :: rest, rfl, by simpa using hboundary, hsets⟩
        · refine ⟨c :: passed, setting, rfl, ?_, hsets⟩
          rw [List.getLast?_cons]
          cases hlast : passed.getLast? <;> simpa [hlast] using hpassed
      · rintro ⟨passed, setting, hwhole, hpassed, hsets⟩
        cases passed with
        | nil =>
            left
            rw [List.nil_append] at hwhole
            subst hwhole
            obtain ⟨d, later, hcons, hd⟩ := hsets.exists_cons
            rw [(List.cons.inj hcons).1, wordBoundary, hd]
            simp only [List.getLast?_nil, Option.map_none, Option.getD_none] at hpassed
            simp [hpassed, ← (List.cons.inj hcons).1, hsets]
        | cons d passed =>
            right
            obtain ⟨rfl, rfl⟩ := List.cons.inj hwhole
            refine ⟨passed, setting, rfl, ?_, hsets⟩
            rw [List.getLast?_cons] at hpassed
            cases hlast : passed.getLast? <;> simpa [hlast] using hpassed

theorem hasLanguage_iff {inside : List Char} :
    hasServerLanguage true inside = true ↔ HasLanguage inside := by
  rw [hasServerLanguage_iff, HasLanguage]
  have hlast : ∀ passed : List Char, (passed.getLast?.map isWord).getD true = false ↔
      ∃ c ∈ passed.getLast?, isWord c = false := by
    intro passed
    cases passed.getLast? <;> simp
  simp only [hlast]

theorem exists_eq_append_of_tag
    {rest : List Char} (hclosed : rest.drop (rest.takeWhile (· != '>')).length ≠ []) :
    ∃ inside later, rest.takeWhile (· != '>') = inside ∧ rest = inside ++ '>' :: later ∧
      '>' ∉ inside := by
  induction rest with
  | nil => contradiction
  | cons c rest ih =>
      by_cases hc : c = '>'
      · subst hc
        exact ⟨[], rest, rfl, rfl, List.not_mem_nil⟩
      · have htake : (c :: rest).takeWhile (· != '>') = c :: rest.takeWhile (· != '>') := by
          simp [hc]
        rw [htake, List.length_cons, List.drop_succ_cons] at hclosed
        obtain ⟨inside, later, hinside, hrest, hnone⟩ := ih hclosed
        refine ⟨c :: inside, later, by rw [htake, hinside], by rw [List.cons_append, ← hrest], ?_⟩
        rw [List.mem_cons, not_or]
        exact ⟨Ne.symm hc, hnone⟩

theorem noWordFirst_append_tag {inside later : List Char} :
    NoWordFirst (inside ++ '>' :: later) ↔ NoWordFirst inside := by
  cases inside with
  | nil =>
      have hbracket : isWord '>' = false := by decide
      simp [NoWordFirst, hbracket]
  | cons c rest => simp [NoWordFirst]

theorem isSome_scriptWidth?_iff {text : List Char} :
    (scriptWidth? text).isSome ↔
      ∃ word inside rest, text = word ++ (inside ++ '>' :: rest) ∧ Spells "script".toList word ∧
        '>' ∉ inside ∧ HasLanguage inside ∧ NoWordFirst inside := by
  constructor
  · intro hsome
    obtain ⟨width, hwidth⟩ := Option.isSome_iff_exists.mp hsome
    obtain ⟨rest, hrest, htag⟩ := Option.bind_eq_some_iff.mp hwidth
    obtain ⟨word, hword, rfl⟩ := afterWord?_eq_some_iff.mp hrest
    dsimp only at htag
    simp only [Option.ite_none_right_eq_some, Bool.and_eq_true, Bool.not_eq_true',
      List.isEmpty_eq_false_iff, wordBoundary_true_iff, hasLanguage_iff] at htag
    obtain ⟨⟨⟨hboundary, hclosed⟩, hlanguage⟩, -⟩ := htag
    obtain ⟨inside, later, hinside, rfl, hnone⟩ := exists_eq_append_of_tag hclosed
    rw [hinside] at hlanguage
    exact ⟨word, inside, later, rfl, hword, hnone, hlanguage,
      noWordFirst_append_tag.mp hboundary⟩
  · rintro ⟨word, inside, rest, rfl, hword, hinside, hlanguage, hboundary⟩
    have hafter : afterWord? "script".toList (word ++ (inside ++ '>' :: rest)) =
        some (inside ++ '>' :: rest) := afterWord?_eq_some_iff.mpr ⟨word, hword, rfl⟩
    have htake : (inside ++ '>' :: rest).takeWhile (· != '>') = inside := by
      rw [List.takeWhile_append_of_pos]
      · simp
      · intro c hc
        rw [bne_iff_ne]
        exact fun heq => hinside (heq ▸ hc)
    have hdrop : (inside ++ '>' :: rest).drop inside.length = '>' :: rest := List.drop_left
    have hend : wordBoundary true (inside ++ '>' :: rest) = true :=
      wordBoundary_true_iff.mpr (noWordFirst_append_tag.mpr hboundary)
    simp only [scriptWidth?, hafter, Option.bind_eq_bind, Option.bind_some, htake, hdrop, hend,
      hasLanguage_iff.mpr hlanguage]
    rfl

theorem isSome_segment?_iff {text : List Char} : (segment? text).isSome ↔ BeginsCode text := by
  constructor
  · intro hsome
    unfold segment? at hsome
    split at hsome
    next rest =>
      rw [Option.isSome_map, isSome_instructionWidth?_iff] at hsome
      rcases hsome with ⟨word, later, hword, rfl⟩ | ⟨c, later, hc, rfl⟩
      · exact .instruction hword
      · exact .mark hc
    next rest =>
      rw [Option.isSome_map, isSome_indexOf?_iff] at hsome
      exact .percent hsome
    next rest hnotInstruction hnotPercent =>
      rw [Option.isSome_map, isSome_scriptWidth?_iff] at hsome
      obtain ⟨word, inside, later, rfl, hword, hinside, hlanguage, hboundary⟩ := hsome
      exact .script hword hinside hlanguage hboundary
    next => contradiction
  · intro hbegins
    cases hbegins with
    | @instruction word rest hword =>
        rw [segment?, Option.isSome_map, isSome_instructionWidth?_iff]
        exact .inl ⟨word, rest, hword, rfl⟩
    | @mark c rest hc =>
        rw [segment?, Option.isSome_map, isSome_instructionWidth?_iff]
        exact .inr ⟨c, rest, hc, rfl⟩
    | @percent rest hclosed =>
        rw [segment?, Option.isSome_map, isSome_indexOf?_iff]
        exact hclosed
    | @script word inside rest hword hinside hlanguage hboundary =>
        have hscript := isSome_scriptWidth?_iff.mpr
          ⟨word, inside, rest, rfl, hword, hinside, hlanguage, hboundary⟩
        obtain ⟨c, later, rfl, hc⟩ := hword.exists_cons (by decide) (by decide)
        have hinstruction : c ≠ '?' := by
          rintro rfl
          contradiction
        have hpercent : c ≠ '%' := by
          rintro rfl
          contradiction
        unfold segment?
        split
        next heq => exact absurd (List.cons.inj (List.cons.inj heq).2).1 hinstruction
        next heq => exact absurd (List.cons.inj (List.cons.inj heq).2).1 hpercent
        next heq =>
          rw [(List.cons.inj heq).2] at hscript
          rw [Option.isSome_map]
          exact hscript
        next hnone => exact absurd rfl (hnone _)

end Stencil.ServerCode
