import Stencil.Proofs.Sheet.Important
import Stencil.Proofs.Text.Spacing

/-!
# Tight stretches

A stretch is tight if its blanks are spaces, no two neighbours in it ask for a change, and no mark
of importance is apart from its word.  Making a stretch small makes it tight, and a tight stretch
is left as it is.
-/

namespace Stencil.Sheet

open Stencil.Text

/-! ## Neighbours -/

/-- No blank stands behind a blank or behind punctuation. -/
def FreeBehind (a b : Char) : Prop :=
  isBlank b → ¬ isBlank a ∧ ¬ isPunctuation a

/-- Nor before punctuation. -/
def FreeAround (a b : Char) : Prop :=
  FreeBehind a b ∧ (isBlank a → ¬ isPunctuation b)

/-- And no semicolon is idle. -/
def Fits (a b : Char) : Prop :=
  FreeAround a b ∧ (a = ';' → b ≠ ';' ∧ b ≠ '}')

theorem isBlank_eq_false_of_isPunctuation {c : Char} (hpunctuation : isPunctuation c) :
    isBlank c = false := by
  simp only [isPunctuation, Bool.or_eq_true, beq_iff_eq] at hpunctuation
  rcases hpunctuation with ((((rfl | rfl) | rfl) | rfl) | rfl) | rfl <;> rfl

theorem isWord_eq_false_of_isPunctuation {c : Char} (hpunctuation : isPunctuation c) :
    isWord c = false := by
  simp only [isPunctuation, Bool.or_eq_true, beq_iff_eq] at hpunctuation
  rcases hpunctuation with ((((rfl | rfl) | rfl) | rfl) | rfl) | rfl <;> decide

/-- A character that is neither blank nor punctuation. -/
def Solid (c : Char) : Prop :=
  isBlank c = false ∧ isPunctuation c = false

theorem Solid.fits {a : Char} (hsolid : Solid a) (b : Char) : Fits a b := by
  obtain ⟨hblank, hpunctuation⟩ := hsolid
  refine ⟨⟨fun _ => by simp [hblank, hpunctuation], fun hspace => ?_⟩, ?_⟩
  · rw [hblank] at hspace
    contradiction
  · rintro rfl
    contradiction

theorem isChain_append_of_solid
    {word text : List Char} (hword : ∀ c ∈ word, Solid c) (hchain : text.IsChain FreeAround) :
    (word ++ text).IsChain FreeAround := by
  induction word with
  | nil => exact hchain
  | cons c word ih =>
      obtain ⟨hc, hlater⟩ := List.forall_mem_cons.mp hword
      exact (ih hlater).cons fun d _ => (hc.fits d).1

theorem solid_letter : Solid 'a' := ⟨rfl, rfl⟩

theorem solid_of_mem_important {c : Char} (hc : c ∈ '!' :: importantWord) : Solid c := by
  have hnone : ('!' :: importantWord).any (fun d => isBlank d || isPunctuation d) = false := by
    decide
  have hc' := List.any_eq_false.mp hnone c hc
  rwa [Bool.not_eq_true, Bool.or_eq_false_iff] at hc'

/-! ## Each step brings neighbours together that fit

Each law is about the text behind a character `p`, so that the induction knows what was kept
last. -/

theorem isChain_joinImportant
    {p : Char} {text : List Char} (hchain : (p :: text).IsChain FreeAround) :
    (p :: joinImportant text).IsChain FreeAround := by
  induction text using joinImportant_induction generalizing p with
  | hnil => exact hchain
  | hkeep c rest _ ih =>
      obtain ⟨hpair, hlater⟩ := List.isChain_cons_cons.mp hchain
      exact List.isChain_cons_cons.mpr ⟨hpair, ih hlater⟩
  | hjoin found behind hspaced ih =>
      obtain ⟨gap, spelled, -, -, -, rfl⟩ := hspaced
      rw [List.cons_append] at hchain
      obtain ⟨hpair, hlater⟩ := List.isChain_cons_cons.mp hchain
      have hbehind : ('a' :: behind).IsChain FreeAround :=
        hlater.tail.right_of_append.cons fun d _ => (solid_letter.fits d).1
      have hjoined : ('!' :: importantWord ++ joinImportant behind).IsChain FreeAround :=
        isChain_append_of_solid (fun c => solid_of_mem_important) (ih hbehind).tail
      exact List.isChain_cons_cons.mpr ⟨hpair, hjoined⟩

theorem isChain_dropIdleSemicolons
    {p : Char} {text : List Char} (hchain : (p :: text).IsChain FreeAround)
    (hp : p = ';' → ∀ d ∈ text.head?, d ≠ ';' ∧ d ≠ '}') :
    (p :: dropIdleSemicolons text).IsChain Fits := by
  induction text generalizing p with
  | nil => exact List.isChain_singleton p
  | cons c rest ih =>
      obtain ⟨hpair, hlater⟩ := List.isChain_cons_cons.mp hchain
      have hp' : p = ';' → c ≠ ';' ∧ c ≠ '}' := fun heq => hp heq c rfl
      rw [dropIdleSemicolons]
      split
      next hdropped =>
        simp only [Bool.and_eq_true, Bool.or_eq_true, beq_iff_eq] at hdropped
        obtain ⟨rfl, hnext⟩ := hdropped
        have hskipped : (p :: rest).IsChain FreeAround := by
          refine hlater.tail.cons fun d hd => ?_
          have hd' : isPunctuation d := by
            rw [Option.mem_def, List.tail_cons] at hd
            rw [hd, Option.some.injEq, Option.some.injEq] at hnext
            rcases hnext with rfl | rfl <;> rfl
          refine ⟨fun hblank => ?_, fun hblank => absurd rfl (hpair.2 hblank)⟩
          rw [isBlank_eq_false_of_isPunctuation hd'] at hblank
          contradiction
        exact ih hskipped fun heq => absurd rfl (hp' heq).1
      next hkept =>
        refine List.isChain_cons_cons.mpr ⟨⟨hpair, hp'⟩, ih hlater ?_⟩
        rintro rfl d hd
        simp_all

/-! ## Spaces and marks of importance -/

def OnlySpaces (text : List Char) : Prop :=
  ∀ c ∈ text, isBlank c → c = ' '

theorem dropIdleSemicolons_sublist (text : List Char) :
    (dropIdleSemicolons text).Sublist text := by
  fun_induction dropIdleSemicolons text with
  | case1 => exact .slnil
  | case2 c rest hdropped ih => exact ih.cons c
  | case3 c rest hkept ih => exact ih.cons_cons c

theorem onlySpaces_joinImportant {text : List Char} (hspaces : OnlySpaces text) :
    OnlySpaces (joinImportant text) := by
  induction text using joinImportant_induction with
  | hnil => exact hspaces
  | hkeep c rest _ ih =>
      obtain ⟨hc, hrest⟩ := List.forall_mem_cons.mp hspaces
      exact List.forall_mem_cons.mpr ⟨hc, ih hrest⟩
  | hjoin found behind _ ih =>
      have hbehind : OnlySpaces behind := fun c hc => hspaces c (List.mem_append_right found hc)
      intro c hc hblank
      rcases List.mem_append.mp hc with hword | hlater
      · rw [(solid_of_mem_important hword).1] at hblank
        contradiction
      · exact ih hbehind c hlater hblank

/-- No mark of importance is apart from its word. -/
def AllJoined (text : List Char) : Prop :=
  ∀ found, SpacedImportant found → ¬ found <:+: text

theorem SpacedImportant.exists_cons {found : List Char} (hspaced : SpacedImportant found) :
    ∃ c word, found = '!' :: c :: word ∧ isBlank c ∧
      ∀ d ∈ c :: word, isBlank d = true ∨ isWord d = true := by
  obtain ⟨gap, spelled, hgap, hblank, hspells, rfl⟩ := hspaced
  obtain ⟨c, later, rfl⟩ := List.exists_cons_of_ne_nil hgap
  refine ⟨c, later ++ spelled, rfl, hblank c List.mem_cons_self, fun d hd => ?_⟩
  rw [← List.cons_append] at hd
  rcases List.mem_append.mp hd with hgap | hletter
  · exact .inl (hblank d hgap)
  · exact .inr (hspells.all_isWord (by decide) d hletter)

theorem prefix_of_prefix_joinImportant
    {word text : List Char} (hword : '!' ∉ word) (hbegins : word <+: joinImportant text) :
    word <+: text := by
  induction text using joinImportant_induction generalizing word with
  | hnil => exact hbegins
  | hkeep c rest _ ih =>
      cases word with
      | nil => exact List.nil_prefix
      | cons d word =>
          rw [List.cons_prefix_cons] at hbegins ⊢
          exact ⟨hbegins.1, ih (fun hmem => hword (List.mem_cons_of_mem d hmem)) hbegins.2⟩
  | hjoin found behind _ _ =>
      cases word with
      | nil => exact List.nil_prefix
      | cons d word =>
          rw [List.cons_append, List.cons_prefix_cons] at hbegins
          exact absurd (List.mem_cons.mpr (.inl hbegins.1.symm)) hword

theorem infix_of_infix_append
    {word text later : List Char} (hword : '!' ∉ word) (hoccurs : '!' :: later <:+: word ++ text) :
    '!' :: later <:+: text := by
  induction word with
  | nil => exact hoccurs
  | cons c word ih =>
      rw [List.mem_cons, not_or] at hword
      rw [List.cons_append, List.infix_cons_iff, List.cons_prefix_cons] at hoccurs
      rcases hoccurs with ⟨heq, -⟩ | hlater
      · exact absurd heq hword.1
      · exact ih hword.2 hlater

theorem allJoined_joinImportant (text : List Char) : AllJoined (joinImportant text) := by
  intro found hspaced hoccurs
  obtain ⟨c, word, hfound, hblank, hletters⟩ := hspaced.exists_cons
  have hmark : '!' ∉ c :: word := by
    intro hmem
    have hneither : ¬ (isBlank '!' = true ∨ isWord '!' = true) := by decide
    exact hneither (hletters '!' hmem)
  induction text using joinImportant_induction with
  | hnil =>
      rw [List.infix_nil] at hoccurs
      exact hspaced.ne_nil hoccurs
  | hkeep d rest hnone ih =>
      rcases List.infix_cons_iff.mp hoccurs with hbegins | hlater
      · have hhere : found <+: d :: rest := by
          rw [hfound, List.cons_prefix_cons] at hbegins ⊢
          exact ⟨hbegins.1, prefix_of_prefix_joinImportant hmark hbegins.2⟩
        obtain ⟨behind, hbehind⟩ := hhere
        rw [← hbehind, spacedImportant?_append hspaced] at hnone
        contradiction
      · exact ih hlater
  | hjoin other behind _ ih =>
      rw [List.cons_append, List.infix_cons_iff] at hoccurs
      rcases hoccurs with hbegins | hlater
      · rw [hfound, List.cons_prefix_cons] at hbegins
        obtain ⟨rfl, -⟩ := List.cons_prefix_cons.mp hbegins.2
        contradiction
      · rw [hfound] at hlater ih
        exact ih (infix_of_infix_append (by decide) hlater)

theorem prefix_of_prefix_dropIdleSemicolons
    {word text : List Char} (hword : ∀ c ∈ word, isPunctuation c = false)
    (hbegins : word <+: dropIdleSemicolons text) : word <+: text := by
  induction text generalizing word with
  | nil => exact hbegins
  | cons c rest ih =>
      cases word with
      | nil => exact List.nil_prefix
      | cons d word =>
          obtain ⟨hd, hword'⟩ := List.forall_mem_cons.mp hword
          rw [dropIdleSemicolons] at hbegins
          split at hbegins
          next hdropped =>
            have hhere := ih hword hbegins
            obtain ⟨behind, rfl⟩ := hhere
            simp only [Bool.and_eq_true, Bool.or_eq_true, beq_iff_eq, List.cons_append,
              List.head?_cons, Option.some.injEq] at hdropped
            obtain ⟨-, rfl | rfl⟩ := hdropped <;> contradiction
          next =>
            rw [List.cons_prefix_cons] at hbegins ⊢
            exact ⟨hbegins.1, ih hword' hbegins.2⟩

theorem infix_of_infix_dropIdleSemicolons
    {word text : List Char} (hword : ∀ c ∈ word, isPunctuation c = false)
    (hoccurs : word <:+: dropIdleSemicolons text) : word <:+: text := by
  fun_induction dropIdleSemicolons text with
  | case1 => exact hoccurs
  | case2 c rest hdropped ih => exact List.infix_cons (ih hoccurs)
  | case3 c rest hkept ih =>
      rcases List.infix_cons_iff.mp hoccurs with hbegins | hlater
      · have hfront : word <+: dropIdleSemicolons (c :: rest) := by
          rw [dropIdleSemicolons, if_neg hkept]
          exact hbegins
        exact (prefix_of_prefix_dropIdleSemicolons hword hfront).isInfix
      · exact List.infix_cons (ih hlater)

theorem allJoined_dropIdleSemicolons {text : List Char} (hjoined : AllJoined text) :
    AllJoined (dropIdleSemicolons text) := by
  intro found hspaced hoccurs
  obtain ⟨c, word, hfound, -, hletters⟩ := hspaced.exists_cons
  refine hjoined found hspaced (infix_of_infix_dropIdleSemicolons ?_ hoccurs)
  rw [hfound]
  refine List.forall_mem_cons.mpr ⟨rfl, fun d hd => ?_⟩
  by_contra hpunctuation
  rw [Bool.not_eq_false] at hpunctuation
  rcases hletters d hd with hblank | hword
  · rw [isBlank_eq_false_of_isPunctuation hpunctuation] at hblank
    contradiction
  · rw [isWord_eq_false_of_isPunctuation hpunctuation] at hword
    contradiction

/-! ## Tight stretches -/

structure Tight (stretch : List Char) : Prop where
  spaces : OnlySpaces stretch
  fits : stretch.IsChain Fits
  joined : AllJoined stretch

theorem Tight.of_infix
    {stretch part : List Char} (htight : Tight stretch) (hpart : part <:+: stretch) :
    Tight part where
  spaces := fun c hc => htight.spaces c (hpart.subset hc)
  fits := htight.fits.infix hpart
  joined := fun found hspaced hoccurs => htight.joined found hspaced (hoccurs.trans hpart)

theorem tight_tighten (stretch : List Char) : Tight (tighten stretch) := by
  have hvisible : Visible isPunctuation := fun _ => isBlank_eq_false_of_isPunctuation
  have htidy : Tidy isPunctuation isPunctuation (tidy isPunctuation isPunctuation stretch) :=
    tidy_tidy hvisible rfl stretch
  rw [tighten_eq]
  have haround : ('a' :: tidy isPunctuation isPunctuation stretch).IsChain FreeAround :=
    htidy.neighbours.cons fun d _ => (solid_letter.fits d).1
  have hjoined := isChain_joinImportant haround
  have hfits := isChain_dropIdleSemicolons hjoined fun heq => by contradiction
  have hkept := onlySpaces_joinImportant htidy.spaces
  exact ⟨fun c hc => hkept c ((dropIdleSemicolons_sublist _).subset hc), hfits.tail,
    allJoined_dropIdleSemicolons (allJoined_joinImportant _)⟩

theorem joinImportant_eq_self {text : List Char} (hjoined : AllJoined text) :
    joinImportant text = text := by
  induction text using joinImportant_induction with
  | hnil => rfl
  | hkeep c rest _ ih =>
      rw [ih fun found hspaced hoccurs => hjoined found hspaced (List.infix_cons hoccurs)]
  | hjoin found behind hspaced _ =>
      exact absurd (List.prefix_append found behind).isInfix (hjoined found hspaced)

theorem dropIdleSemicolons_eq_self {text : List Char} (hchain : text.IsChain Fits) :
    dropIdleSemicolons text = text := by
  induction text with
  | nil => rfl
  | cons c rest ih =>
      rw [dropIdleSemicolons, if_neg, ih hchain.tail]
      cases rest with
      | nil => simp
      | cons d later =>
          obtain ⟨hpair, -⟩ := List.isChain_cons_cons.mp hchain
          simpa using hpair.2

/-- A tight stretch cannot be made smaller. -/
theorem Tight.tighten_eq_self {stretch : List Char} (htight : Tight stretch) :
    tighten stretch = stretch := by
  have htidy : Tidy isPunctuation isPunctuation stretch :=
    ⟨htight.spaces, htight.fits.imp fun _ _ hpair => hpair.1⟩
  have hkept : dropBlanksBefore isPunctuation (dropBlanksAfter isPunctuation (collapse stretch)) =
      stretch := htidy.tidy_eq_self rfl
  rw [tighten_eq, hkept, joinImportant_eq_self htight.joined,
    dropIdleSemicolons_eq_self htight.fits]

end Stencil.Sheet
