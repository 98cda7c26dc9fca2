import Stencil.Proofs.Sheet.Tight
import Stencil.Proofs.Text.Apart

/-!
# A small stretch from its beginning

What a stretch is made small to is decided at its beginning by what stands there: blanks,
punctuation, a mark of importance, or any other character.
-/

namespace Stencil.Sheet

open Stencil.Text

theorem visible_isPunctuation : Visible isPunctuation :=
  fun _ => isBlank_eq_false_of_isPunctuation

theorem tighten_eq_tidy (stretch : List Char) :
    tighten stretch =
      dropIdleSemicolons (joinImportant (tidy isPunctuation isPunctuation stretch)) :=
  rfl

theorem joinImportant_cons_of_ne {c : Char} (hc : c ≠ '!') (rest : List Char) :
    joinImportant (c :: rest) = c :: joinImportant rest := by
  apply joinImportant_cons_of_none
  unfold spacedImportant?
  split
  next heq => exact absurd (List.cons.inj heq).1 hc
  next => rfl

theorem dropIdleSemicolons_cons_of_ne {c : Char} (hc : c ≠ ';') (rest : List Char) :
    dropIdleSemicolons (c :: rest) = c :: dropIdleSemicolons rest := by
  rw [dropIdleSemicolons, beq_eq_false_iff_ne.mpr hc, Bool.false_and, if_neg Bool.false_ne_true]

theorem tighten_nil : tighten [] = [] := by
  rw [tighten_eq_tidy, tidy_nil, joinImportant_nil, dropIdleSemicolons]

theorem ne_exclamation_of_isPunctuation {c : Char} (hc : isPunctuation c) : c ≠ '!' := by
  rintro rfl
  contradiction

/-! ## Blanks -/

theorem tighten_append
    {gap text : List Char} (hgap : AllBlank gap) (htext : NoBlankFirst text) :
    tighten (gap ++ text) =
      (if !gap.isEmpty && !leadsTo isPunctuation text then [' '] else []) ++ tighten text := by
  rw [tighten_eq_tidy, tidy_append rfl hgap htext, tighten_eq_tidy]
  split
  next =>
    rw [List.singleton_append, joinImportant_cons_of_ne (by decide),
      dropIdleSemicolons_cons_of_ne (by decide), List.singleton_append]
  next => rfl

theorem noBlankFirst_dropIdleSemicolons {text : List Char} (htext : NoBlankFirst text) :
    NoBlankFirst (dropIdleSemicolons text) := by
  induction text with
  | nil => exact htext
  | cons c rest ih =>
      rw [dropIdleSemicolons]
      split
      next hdropped =>
        simp only [Bool.and_eq_true, Bool.or_eq_true, beq_iff_eq] at hdropped
        apply ih
        intro d hd
        rw [Option.mem_def] at hd
        rw [hd, Option.some.injEq, Option.some.injEq] at hdropped
        rcases hdropped.2 with rfl | rfl <;> rfl
      next => exact noBlankFirst_cons (htext c rfl)

theorem head?_joinImportant (text : List Char) : (joinImportant text).head? = text.head? := by
  induction text using joinImportant_induction with
  | hnil => rfl
  | hkeep c rest _ _ => rfl
  | hjoin found behind hspaced _ =>
      obtain ⟨gap, spelled, -, -, -, rfl⟩ := hspaced
      rfl

theorem noBlankFirst_tighten {text : List Char} (htext : NoBlankFirst text) :
    NoBlankFirst (tighten text) := by
  have hjoined : NoBlankFirst (joinImportant (tidy isPunctuation isPunctuation text)) := by
    rw [NoBlankFirst, head?_joinImportant]
    exact noBlankFirst_tidy htext
  exact noBlankFirst_dropIdleSemicolons hjoined

theorem skipBlanks_tighten (text : List Char) :
    skipBlanks (tighten text) = tighten (skipBlanks text) := by
  have hfirst := noBlankFirst_skipBlanks text
  obtain ⟨gap, hgap, -, htext⟩ := exists_eq_append_skipBlanks text
  generalize skipBlanks text = visible at htext hfirst ⊢
  rw [htext, tighten_append hgap hfirst,
    skipBlanks_append (allBlank_space _) (noBlankFirst_tighten hfirst)]

/-! ## Punctuation -/

theorem tighten_cons_of_isPunctuation
    {c : Char} (hc : isPunctuation c) (hkept : c ≠ ';') (rest : List Char) :
    tighten (c :: rest) = c :: tighten (skipBlanks rest) := by
  rw [tighten_eq_tidy, tidy_cons_of_behind (isBlank_eq_false_of_isPunctuation hc) hc,
    joinImportant_cons_of_ne (ne_exclamation_of_isPunctuation hc),
    dropIdleSemicolons_cons_of_ne hkept, tighten_eq_tidy]

/-- A semicolon that ends nothing stands before one of these. -/
def endsDeclaration (c : Char) : Bool :=
  c == ';' || c == '}'

theorem head?_tidy {text : List Char} (htext : NoBlankFirst text) :
    (tidy isPunctuation isPunctuation text).head? = text.head? := by
  cases text with
  | nil => rfl
  | cons c rest =>
      have hc : isBlank c = false := htext c rfl
      obtain ⟨rest', hrest'⟩ := exists_tidy_cons hc isPunctuation isPunctuation rest
      rw [hrest', List.head?_cons, List.head?_cons]

theorem tighten_semicolon (rest : List Char) :
    tighten (';' :: rest) =
      (if leadsTo endsDeclaration rest then [] else [';']) ++ tighten (skipBlanks rest) := by
  have hhead : (joinImportant (tidy isPunctuation isPunctuation (skipBlanks rest))).head? =
      (skipBlanks rest).head? := by
    rw [head?_joinImportant, head?_tidy (noBlankFirst_skipBlanks rest)]
  have hleads : leadsTo endsDeclaration rest =
      ((skipBlanks rest).head? == some ';' || (skipBlanks rest).head? == some '}') := by
    rw [leadsTo]
    split <;> simp_all [endsDeclaration]
  rw [tighten_eq_tidy, tidy_cons_of_behind rfl rfl, joinImportant_cons_of_ne (by decide),
    dropIdleSemicolons, hhead, hleads, tighten_eq_tidy, beq_self_eq_true, Bool.true_and]
  split <;> rfl

/-! ## Marks of importance and other characters -/

theorem tidy_append_of_solid
    {word : List Char} (hword : ∀ c ∈ word, Solid c) (behind : List Char) :
    tidy isPunctuation isPunctuation (word ++ behind) =
      word ++ tidy isPunctuation isPunctuation behind := by
  induction word with
  | nil => rfl
  | cons c word ih =>
      obtain ⟨⟨hblank, hpunctuation⟩, hlater⟩ := List.forall_mem_cons.mp hword
      rw [List.cons_append, tidy_cons hblank hpunctuation, ih hlater, List.cons_append]

theorem dropIdleSemicolons_append_of_solid
    {word : List Char} (hword : ∀ c ∈ word, Solid c) (behind : List Char) :
    dropIdleSemicolons (word ++ behind) = word ++ dropIdleSemicolons behind := by
  induction word with
  | nil => rfl
  | cons c word ih =>
      obtain ⟨hc, hlater⟩ := List.forall_mem_cons.mp hword
      have hkept : c ≠ ';' := by
        rintro rfl
        exact absurd hc.2 (by decide)
      rw [List.cons_append, dropIdleSemicolons_cons_of_ne hkept, ih hlater, List.cons_append]

theorem solid_of_spells_important
    {spelled : List Char} (hspells : Spells importantWord spelled) : ∀ c ∈ spelled, Solid c := by
  intro c hc
  have hword := hspells.all_isWord (by decide) c hc
  refine ⟨isBlank_eq_false_of_isWord hword, ?_⟩
  by_contra hpunctuation
  rw [Bool.not_eq_false] at hpunctuation
  rw [isWord_eq_false_of_isPunctuation hpunctuation] at hword
  contradiction

theorem leadsTo_of_spells_important
    {spelled : List Char} (hspells : Spells importantWord spelled) (behind : List Char) :
    leadsTo isPunctuation (spelled ++ behind) = false := by
  obtain ⟨c, later, rfl, -⟩ := hspells.exists_cons (by decide) (by decide)
  obtain ⟨hblank, hpunctuation⟩ := solid_of_spells_important hspells c List.mem_cons_self
  rw [List.cons_append, leadsTo_of_not_isBlank hblank, hpunctuation]

/-- A mark of importance is joined to its word, whatever follows. -/
theorem tighten_append_of_spacedImportant
    {found : List Char} (hspaced : SpacedImportant found) (behind : List Char) :
    tighten (found ++ behind) = '!' :: importantWord ++ tighten behind := by
  obtain ⟨gap, spelled, hnonempty, hgap, hspells, rfl⟩ := hspaced
  have hfirst := noBlankFirst_of_spells_important hspells behind
  have htidy : tidy isPunctuation isPunctuation ('!' :: (gap ++ spelled) ++ behind) =
      '!' :: ([' '] ++ spelled) ++ tidy isPunctuation isPunctuation behind := by
    rw [List.cons_append, List.append_assoc, tidy_cons rfl rfl,
      tidy_append rfl hgap hfirst, leadsTo_of_spells_important hspells,
      List.isEmpty_eq_false_iff.mpr hnonempty,
      tidy_append_of_solid (solid_of_spells_important hspells)]
    rfl
  have hjoined : SpacedImportant ('!' :: ([' '] ++ spelled)) :=
    ⟨[' '], spelled, List.cons_ne_nil _ _, by simp [AllBlank, isBlank], hspells, rfl⟩
  rw [tighten_eq_tidy, htidy, joinImportant_append hjoined,
    dropIdleSemicolons_append_of_solid fun _ => solid_of_mem_important, tighten_eq_tidy]

/-- Tidying makes no mark of importance. -/
theorem spacedImportant?_cons_tidy
    {c : Char} {rest : List Char} (hnone : spacedImportant? (c :: rest) = none) :
    spacedImportant? (c :: tidy isPunctuation isPunctuation rest) = none := by
  rw [Option.eq_none_iff_forall_ne_some]
  intro hit hhit
  obtain ⟨found, behind, hspaced, heq⟩ := exists_spacedImportant_of_spacedImportant? hhit
  obtain ⟨gap', spelled, hnonempty', hgap', hspells, rfl⟩ := hspaced
  rw [List.cons_append, List.append_assoc] at heq
  obtain ⟨rfl, htidy⟩ := List.cons.inj heq
  have hskip : tidy isPunctuation isPunctuation (skipBlanks rest) = spelled ++ behind := by
    rw [← skipBlanks_tidy rfl, htidy,
      skipBlanks_append hgap' (noBlankFirst_of_spells_important hspells behind)]
  obtain ⟨later, hlater, -⟩ := exists_eq_append_of_tidy_eq_append visible_isPunctuation
    (fun c hc => ⟨(solid_of_spells_important hspells c hc).1,
      (solid_of_spells_important hspells c hc).2, (solid_of_spells_important hspells c hc).2⟩) hskip
  obtain ⟨gap, hgap, -, hrest⟩ := exists_eq_append_skipBlanks rest
  have hnonempty : gap ≠ [] := by
    rintro rfl
    have hfirst : NoBlankFirst (tidy isPunctuation isPunctuation rest) := by
      rw [hrest, List.nil_append]
      exact noBlankFirst_tidy (noBlankFirst_skipBlanks rest)
    obtain ⟨d, gap', rfl⟩ := List.exists_cons_of_ne_nil hnonempty'
    have hvisible : isBlank d = false := hfirst d (by rw [htidy]; rfl)
    rw [hgap' d List.mem_cons_self] at hvisible
    contradiction
  have hspaced : SpacedImportant ('!' :: (gap ++ spelled)) :=
    ⟨gap, spelled, hnonempty, hgap, hspells, rfl⟩
  have hsome := spacedImportant?_append hspaced later
  rw [List.cons_append, List.append_assoc, ← hlater, ← hrest, hnone] at hsome
  contradiction

theorem tighten_cons_of_solid
    {c : Char} (hsolid : Solid c) {rest : List Char} (hnone : spacedImportant? (c :: rest) = none) :
    tighten (c :: rest) = c :: tighten rest := by
  have hkept : c ≠ ';' := by
    rintro rfl
    exact absurd hsolid.2 (by decide)
  rw [tighten_eq_tidy, tidy_cons hsolid.1 hsolid.2,
    joinImportant_cons_of_none (spacedImportant?_cons_tidy hnone),
    dropIdleSemicolons_cons_of_ne hkept, tighten_eq_tidy]

end Stencil.Sheet
