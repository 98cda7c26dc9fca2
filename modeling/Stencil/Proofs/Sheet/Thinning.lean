import Stencil.Proofs.Sheet.Important
import Stencil.Proofs.Sheet.Reader

/-!
# Thinning a stretch

What is done to a stretch between quoted strings leaves all quotes, escapes, slashes and stars in
place and replaces runs of other characters by runs of other characters.  No reader sees a
difference, so that no string or comment begins where none did.
-/

namespace Stencil.Sheet

open Stencil.Text

/-- The characters that readers of strings and comments tell apart. -/
def activeCharacters : List Char :=
  ['"', '\'', '\\', '/', '*']

def Inert (c : Char) : Prop :=
  c ∉ activeCharacters

theorem inert_of_class
    {inClass : Char → Bool} (hclass : activeCharacters.any inClass = false) {c : Char}
    (hc : inClass c) : Inert c := by
  intro hactive
  rw [List.any_eq_false] at hclass
  exact hclass c hactive hc

theorem inert_of_isBlank {c : Char} (hblank : isBlank c) : Inert c :=
  inert_of_class (by decide) hblank

theorem inert_of_isPunctuation {c : Char} (hpunctuation : isPunctuation c) : Inert c :=
  inert_of_class (by decide) hpunctuation

theorem inert_of_isWord {c : Char} (hword : isWord c) : Inert c :=
  inert_of_class (by decide) hword

theorem Inert.start_eq_lost {c : Char} (hinert : Inert c) : Reader.start c = .lost := by
  simp only [Inert, activeCharacters, List.mem_cons, not_or] at hinert
  simp [Reader.start, hinert]

/-- To a reader all inert characters are the same, and a run of them is one. -/
theorem Inert.step_eq {c : Char} (hinert : Inert c) (reader : Reader) :
    reader.step c = reader.step ' ' := by
  simp only [Inert, activeCharacters, List.mem_cons, not_or] at hinert
  cases reader with
  | lost => rfl
  | slash => simp [Reader.step, hinert]
  | comment star => simp [Reader.step, hinert]
  | quoted double escaped =>
      cases double <;> cases escaped <;> simp [Reader.step, quoteMark, hinert]
  | closed => rfl

theorem step_space_step_space (reader : Reader) :
    (reader.step ' ').step ' ' = reader.step ' ' := by
  cases reader with
  | lost => rfl
  | slash => rfl
  | comment star => cases star <;> rfl
  | quoted double escaped => cases double <;> cases escaped <;> rfl
  | closed => rfl

def InertRun (text : List Char) : Prop :=
  text ≠ [] ∧ ∀ c ∈ text, Inert c

theorem inertRun_singleton {c : Char} (hinert : Inert c) : InertRun [c] :=
  ⟨List.cons_ne_nil _ _, by simpa using hinert⟩

theorem InertRun.cons {c : Char} {text : List Char} (hinert : Inert c)
    (hrest : ∀ d ∈ text, Inert d) : InertRun (c :: text) :=
  ⟨List.cons_ne_nil _ _, List.forall_mem_cons.mpr ⟨hinert, hrest⟩⟩

theorem InertRun.read_eq {text : List Char} (hrun : InertRun text) (reader : Reader) :
    reader.read text = reader.step ' ' := by
  obtain ⟨hnonempty, hinert⟩ := hrun
  induction text generalizing reader with
  | nil => contradiction
  | cons c rest ih =>
      obtain ⟨hc, hrest⟩ := List.forall_mem_cons.mp hinert
      rw [Reader.read_cons, hc.step_eq]
      by_cases hend : rest = []
      · rw [hend, Reader.read_nil]
      · rw [ih (reader.step ' ') hend hrest, step_space_step_space]

/-! ## Thinning -/

/-- No reader is closed by the second text if the first one does not close it, and each place of
the second text that may begin a string or a comment is one of the first. -/
structure Thins (before after : List Char) : Prop where
  relaxes : Relaxes before after
  places : ∀ c tail', (c :: tail') <:+ after → Reader.start c ≠ .lost →
    ∃ tail, (c :: tail) <:+ before ∧ Relaxes tail tail'

theorem Thins.idle
    {stretch stretch' behind behind' : List Char} (hthins : Thins stretch stretch')
    (hbehind : Relaxes behind behind') (hidle : Idle span? stretch behind) :
    Idle span? stretch' behind' := by
  intro tail htail hnonempty
  obtain ⟨c, tail', rfl⟩ := List.exists_cons_of_ne_nil hnonempty
  by_cases hlost : Reader.start c = .lost
  · rw [List.cons_append, ← Option.not_isSome_iff_eq_none, isSome_span?_iff, hlost,
      Reader.read_lost]
    exact fun hclosed => by contradiction
  · obtain ⟨tail, hsuffix, hrelaxes⟩ := hthins.places c tail' htail hlost
    have hnone := hidle (c :: tail) hsuffix (List.cons_ne_nil _ _)
    exact span?_eq_none_of_relaxes (hrelaxes.append hbehind) hnone

namespace Thins

theorem refl (text : List Char) : Thins text text :=
  ⟨.refl text, fun _ tail' htail _ => ⟨tail', htail, .refl tail'⟩⟩

theorem trans {first second third : List Char} (hfirst : Thins first second)
    (hsecond : Thins second third) : Thins first third := by
  refine ⟨hfirst.relaxes.trans hsecond.relaxes, ?_⟩
  intro c tail'' htail'' hstart
  obtain ⟨tail', htail', hsecond⟩ := hsecond.places c tail'' htail'' hstart
  obtain ⟨tail, htail, hfirst⟩ := hfirst.places c tail' htail' hstart
  exact ⟨tail, htail, hfirst.trans hsecond⟩

theorem cons (c : Char) {before after : List Char} (hthins : Thins before after) :
    Thins (c :: before) (c :: after) := by
  refine ⟨.append (.refl [c]) hthins.relaxes, ?_⟩
  intro d tail' htail' hstart
  rcases List.suffix_cons_iff.mp htail' with heq | hlater
  · obtain ⟨rfl, rfl⟩ := List.cons.inj heq
    exact ⟨before, List.suffix_rfl, hthins.relaxes⟩
  · obtain ⟨tail, htail, hrelaxes⟩ := hthins.places d tail' hlater hstart
    exact ⟨tail, htail.trans (List.suffix_cons c before), hrelaxes⟩

theorem append (text : List Char) {before after : List Char} (hthins : Thins before after) :
    Thins (text ++ before) (text ++ after) := by
  induction text with
  | nil => exact hthins
  | cons c text ih => exact ih.cons c

theorem exchange {run run' : List Char} (hrun : InertRun run) (hrun' : InertRun run')
    (rest : List Char) : Thins (run ++ rest) (run' ++ rest) := by
  refine ⟨?_, ?_⟩
  · refine .append (fun reader => .inr ?_) (.refl rest)
    rw [hrun.read_eq, hrun'.read_eq]
  · intro c tail' htail' hstart
    have hinert := hrun'.2
    clear hrun'
    induction run' with
    | nil => exact ⟨tail', htail'.trans (List.suffix_append run rest), .refl tail'⟩
    | cons d run' ih =>
        obtain ⟨hd, hlater⟩ := List.forall_mem_cons.mp hinert
        rcases List.suffix_cons_iff.mp htail' with heq | hsuffix
        · obtain ⟨rfl, -⟩ := List.cons.inj heq
          exact absurd hd.start_eq_lost hstart
        · exact ih hsuffix hlater

theorem change {c d : Char} (hc : Inert c) (hd : Inert d) (rest : List Char) :
    Thins (c :: rest) (d :: rest) :=
  exchange (inertRun_singleton hc) (inertRun_singleton hd) rest

theorem drop {c d : Char} (hc : Inert c) (hd : Inert d) (rest : List Char) :
    Thins (c :: d :: rest) (d :: rest) := by
  have hrun : InertRun [c, d] := .cons hc (by simpa using hd)
  exact exchange hrun (inertRun_singleton hd) rest

end Thins

/-! ## Each step of making a stretch small -/

theorem inert_space : Inert ' ' :=
  inert_of_isBlank rfl

theorem thins_collapseFrom (text : List Char) :
    Thins text (collapseFrom false text) ∧
      Thins (' ' :: text) (' ' :: collapseFrom true text) := by
  induction text with
  | nil => exact ⟨.refl _, .refl _⟩
  | cons c rest ih =>
      obtain ⟨hfirst, hinRun⟩ := ih
      rw [collapseFrom, collapseFrom]
      by_cases hblank : isBlank c
      · have hspace : Thins (c :: rest) (' ' :: rest) :=
          .change (inert_of_isBlank hblank) inert_space rest
        rw [if_pos hblank, if_pos hblank, if_pos rfl]
        refine ⟨hspace.trans hinRun, ?_⟩
        have hdrop : Thins (' ' :: c :: rest) (c :: rest) :=
          .drop inert_space (inert_of_isBlank hblank) rest
        exact hdrop.trans (hspace.trans hinRun)
      · rw [if_neg hblank, if_neg hblank]
        exact ⟨hfirst.cons c, (hfirst.cons c).cons ' '⟩

theorem thins_collapse (text : List Char) : Thins text (collapse text) :=
  (thins_collapseFrom text).1

variable {inClass : Char → Bool}

theorem thins_dropAfterFrom (hclass : ∀ c, inClass c → Inert c) (text : List Char) :
    Thins text (dropAfterFrom inClass false text) ∧
      ∀ p, Inert p → Thins (p :: text) (p :: dropAfterFrom inClass true text) := by
  induction text with
  | nil => exact ⟨.refl _, fun p _ => .refl _⟩
  | cons c rest ih =>
      obtain ⟨hfirst, hafter⟩ := ih
      have hkept : Thins (c :: rest) (c :: dropAfterFrom inClass (inClass c) rest) := by
        cases hc : inClass c with
        | true => exact hafter c (hclass c hc)
        | false => exact hfirst.cons c
      refine ⟨hkept, fun p hp => ?_⟩
      rw [dropAfterFrom, Bool.true_and]
      by_cases hblank : isBlank c
      · have hdrop : Thins (p :: c :: rest) (c :: rest) := .drop hp (inert_of_isBlank hblank) rest
        have hchange : Thins (c :: rest) (p :: rest) := .change (inert_of_isBlank hblank) hp rest
        rw [if_pos hblank]
        exact hdrop.trans (hchange.trans (hafter p hp))
      · rw [if_neg hblank]
        exact hkept.cons p

theorem thins_dropBlanksAfter (hclass : ∀ c, inClass c → Inert c) (text : List Char) :
    Thins text (dropBlanksAfter inClass text) :=
  (thins_dropAfterFrom hclass text).1

theorem exists_inert_of_leadsTo
    (hclass : ∀ c, inClass c → Inert c) {text : List Char} (hleads : leadsTo inClass text) :
    ∃ c rest, text = c :: rest ∧ Inert c := by
  cases text with
  | nil => contradiction
  | cons c rest =>
      refine ⟨c, rest, rfl, ?_⟩
      by_cases hblank : isBlank c
      · exact inert_of_isBlank hblank
      · apply hclass
        simpa [leadsTo, skipBlanks, hblank] using hleads

theorem thins_dropBlanksBefore (hclass : ∀ c, inClass c → Inert c) (text : List Char) :
    Thins text (dropBlanksBefore inClass text) := by
  induction text with
  | nil => exact .refl _
  | cons c rest ih =>
      rw [dropBlanksBefore]
      split
      next hdropped =>
        rw [Bool.and_eq_true] at hdropped
        obtain ⟨d, later, rfl, hd⟩ := exists_inert_of_leadsTo hclass hdropped.2
        have hdrop : Thins (c :: d :: later) (d :: later) :=
          .drop (inert_of_isBlank hdropped.1) hd later
        exact hdrop.trans ih
      next => exact ih.cons c

theorem inert_of_mem_importantWord {c : Char} (hc : c ∈ importantWord) : Inert c := by
  have hword : importantWord.all isWord := by decide
  exact inert_of_isWord (List.all_eq_true.mp hword c hc)

theorem inert_exclamation : Inert '!' := by
  simp [Inert, activeCharacters]

theorem SpacedImportant.inertRun {text : List Char} (hspaced : SpacedImportant text) :
    InertRun text := by
  obtain ⟨gap, spelled, -, hgap, hspells, rfl⟩ := hspaced
  refine .cons inert_exclamation fun c hc => ?_
  rcases List.mem_append.mp hc with hblank | hletter
  · exact inert_of_isBlank (hgap c hblank)
  · exact inert_of_isWord (hspells.all_isWord (by decide) c hletter)

theorem thins_joinImportant (text : List Char) : Thins text (joinImportant text) := by
  induction text using joinImportant_induction with
  | hnil => exact .refl []
  | hkeep c rest _ ih => exact ih.cons c
  | hjoin found behind hspaced ih =>
      have hjoined : InertRun ('!' :: importantWord) :=
        .cons inert_exclamation fun _ => inert_of_mem_importantWord
      exact (Thins.exchange hspaced.inertRun hjoined behind).trans (ih.append _)

theorem thins_dropIdleSemicolons (text : List Char) : Thins text (dropIdleSemicolons text) := by
  induction text with
  | nil => exact .refl _
  | cons c rest ih =>
      rw [dropIdleSemicolons]
      split
      next hdropped =>
        simp only [Bool.and_eq_true, Bool.or_eq_true, beq_iff_eq] at hdropped
        obtain ⟨rfl, hnext⟩ := hdropped
        obtain ⟨d, later, rfl, hd⟩ : ∃ d later, rest = d :: later ∧ isPunctuation d := by
          cases rest with
          | nil => simp at hnext
          | cons d later =>
              refine ⟨d, later, rfl, ?_⟩
              simp only [List.head?_cons, Option.some.injEq] at hnext
              rcases hnext with rfl | rfl <;> rfl
        have hdrop : Thins (';' :: d :: later) (d :: later) :=
          .drop (inert_of_isPunctuation rfl) (inert_of_isPunctuation hd) later
        exact hdrop.trans ih
      next => exact ih.cons c

theorem thins_tighten (stretch : List Char) : Thins stretch (tighten stretch) := by
  have hpunctuation : ∀ c, isPunctuation c → Inert c := fun _ => inert_of_isPunctuation
  rw [tighten_eq]
  exact (thins_collapse _).trans <| (thins_dropBlanksAfter hpunctuation _).trans <|
    (thins_dropBlanksBefore hpunctuation _).trans <| (thins_joinImportant _).trans <|
      thins_dropIdleSemicolons _

end Stencil.Sheet
