import Stencil.Text.Spacing
import Stencil.Proofs.Text.Blank
import Mathlib.Data.List.Chain

/-!
# Laws of spacing

A text is tidy if its blanks are spaces, none of them stands behind another or behind a character
of one class, and none before a character of another class.  Collapsing and dropping blanks makes a
text tidy, and a tidy text is left as it is.  What begins with a visible character in the tidied
text comes from a place of the text that begins with it.
-/

namespace Stencil.Text

variable {behind before : Char → Bool}

def OnlySpaces (text : List Char) : Prop :=
  ∀ c ∈ text, isBlank c → c = ' '

/-- No blank stands behind a blank. -/
def Single (a b : Char) : Prop :=
  isBlank b → ¬ isBlank a

/-- Nor behind a character of the class. -/
def FreeBehind (behind : Char → Bool) (a b : Char) : Prop :=
  isBlank b → ¬ isBlank a ∧ ¬ behind a

/-- Nor before a character of the other class. -/
def FreeAround (behind before : Char → Bool) (a b : Char) : Prop :=
  FreeBehind behind a b ∧ (isBlank a → ¬ before b)

/-- No character of the class is blank. -/
def Visible (inClass : Char → Bool) : Prop :=
  ∀ c, inClass c → isBlank c = false

theorem leadsTo_of_not_isBlank {inClass : Char → Bool} {c : Char} (hc : isBlank c = false)
    (rest : List Char) : leadsTo inClass (c :: rest) = inClass c := by
  simp [leadsTo, skipBlanks, hc]

theorem exists_of_leadsTo {inClass : Char → Bool} {text : List Char}
    (hleads : leadsTo inClass text) :
    ∃ gap c rest, AllBlank gap ∧ inClass c ∧ text = gap ++ c :: rest := by
  obtain ⟨gap, hgap, -, htext⟩ := exists_eq_append_skipBlanks text
  unfold leadsTo at hleads
  split at hleads
  next => contradiction
  next c rest hskip => exact ⟨gap, c, rest, hgap, hleads, by rw [← hskip]; exact htext⟩

/-! ## Nothing is added -/

theorem onlySpaces_collapseFrom (inRun : Bool) (text : List Char) :
    OnlySpaces (collapseFrom inRun text) := by
  fun_induction collapseFrom inRun text with
  | case1 => exact List.forall_mem_nil _
  | case2 c rest hblank ih => exact ih
  | case3 inRun c rest hblank hfirst ih =>
      exact List.forall_mem_cons.mpr ⟨fun _ => rfl, ih⟩
  | case4 inRun c rest hblank ih =>
      exact List.forall_mem_cons.mpr ⟨fun hspace => absurd hspace hblank, ih⟩

theorem length_collapseFrom_le (inRun : Bool) (text : List Char) :
    (collapseFrom inRun text).length ≤ text.length := by
  fun_induction collapseFrom inRun text with
  | case1 => exact le_rfl
  | case2 c rest hblank ih => exact ih.trans (Nat.le_succ _)
  | case3 inRun c rest hblank hfirst ih => exact Nat.succ_le_succ ih
  | case4 inRun c rest hblank ih => exact Nat.succ_le_succ ih

theorem dropAfterFrom_sublist (inClass : Char → Bool) (after : Bool) (text : List Char) :
    (dropAfterFrom inClass after text).Sublist text := by
  fun_induction dropAfterFrom inClass after text with
  | case1 => exact .slnil
  | case2 after c rest hdropped ih => exact ih.cons c
  | case3 after c rest hkept ih => exact ih.cons_cons c

theorem dropBlanksBefore_sublist (inClass : Char → Bool) (text : List Char) :
    (dropBlanksBefore inClass text).Sublist text := by
  fun_induction dropBlanksBefore inClass text with
  | case1 => exact .slnil
  | case2 c rest hdropped ih => exact ih.cons c
  | case3 c rest hkept ih => exact ih.cons_cons c

/-! ## Each step brings neighbours together that fit

Each law is about the text behind a character `p`, so that the induction knows what was kept
last. -/

theorem isChain_collapseFrom (p : Char) (text : List Char) :
    (p :: collapseFrom (isBlank p) text).IsChain Single := by
  induction text generalizing p with
  | nil => exact List.isChain_singleton p
  | cons c rest ih =>
      rw [collapseFrom]
      by_cases hc : isBlank c
      · rw [if_pos hc]
        split
        next hp =>
          have hrun := ih p
          rwa [hp] at hrun
        next hp => exact List.isChain_cons_cons.mpr ⟨fun _ => hp, ih ' '⟩
      · have hkept := ih c
        rw [Bool.not_eq_true] at hc
        rw [hc] at hkept
        rw [hc]
        refine List.isChain_cons_cons.mpr ⟨fun hblank => ?_, hkept⟩
        rw [hc] at hblank
        contradiction

theorem isChain_dropAfterFrom
    {p : Char} {text : List Char} (hchain : (p :: text).IsChain Single) :
    (p :: dropAfterFrom behind (behind p) text).IsChain (FreeBehind behind) := by
  induction text generalizing p with
  | nil => exact List.isChain_singleton p
  | cons c rest ih =>
      obtain ⟨hpair, hlater⟩ := List.isChain_cons_cons.mp hchain
      rw [dropAfterFrom]
      split
      next hdropped =>
        obtain ⟨hp, hc⟩ := Bool.and_eq_true_iff.mp hdropped
        have hskipped : (p :: rest).IsChain Single :=
          hlater.tail.cons fun d hd hblank => hpair hc
        have hrun := ih hskipped
        rwa [hp] at hrun
      next hkept =>
        refine List.isChain_cons_cons.mpr ⟨fun hblank => ⟨hpair hblank, fun hp => ?_⟩, ih hlater⟩
        exact hkept (Bool.and_eq_true_iff.mpr ⟨hp, hblank⟩)

theorem isChain_dropBlanksBefore
    (hvisible : Visible before) {p : Char} {text : List Char}
    (hchain : (p :: text).IsChain (FreeBehind behind))
    (hp : isBlank p → leadsTo before text = false) :
    (p :: dropBlanksBefore before text).IsChain (FreeAround behind before) := by
  induction text generalizing p with
  | nil => exact List.isChain_singleton p
  | cons c rest ih =>
      obtain ⟨hpair, hlater⟩ := List.isChain_cons_cons.mp hchain
      rw [dropBlanksBefore]
      split
      next hdropped =>
        obtain ⟨hc, hleads⟩ := Bool.and_eq_true_iff.mp hdropped
        have hnext : ∀ d ∈ rest.head?, isBlank d = false := by
          intro d hd
          by_contra hblank
          rw [Bool.not_eq_false] at hblank
          exact hlater.rel_head? hd hblank |>.1 hc
        have hskipped : (p :: rest).IsChain (FreeBehind behind) := by
          refine hlater.tail.cons fun d hd hblank => ?_
          rw [hnext d hd] at hblank
          contradiction
        exact ih hskipped fun hblank => absurd hblank (hpair hc).1
      next hkept =>
        refine List.isChain_cons_cons.mpr ⟨⟨hpair, fun hblank hinClass => ?_⟩, ?_⟩
        · have hleads := hp hblank
          rw [leadsTo_of_not_isBlank (hvisible c hinClass), hinClass] at hleads
          contradiction
        · apply ih hlater
          intro hblank
          rw [Bool.and_eq_true, not_and, Bool.not_eq_true] at hkept
          exact hkept hblank

/-! ## Texts that are left as they are -/

theorem collapseFrom_eq_self
    {p : Char} {text : List Char} (hspaces : OnlySpaces text)
    (hchain : (p :: text).IsChain Single) : collapseFrom (isBlank p) text = text := by
  induction text generalizing p with
  | nil => rfl
  | cons c rest ih =>
      obtain ⟨hpair, hlater⟩ := List.isChain_cons_cons.mp hchain
      obtain ⟨hc, hrest⟩ := List.forall_mem_cons.mp hspaces
      have hih := ih hrest hlater
      rw [collapseFrom]
      split
      next hblank =>
        rw [if_neg (hpair hblank), ← hc hblank]
        rw [hblank] at hih
        rw [hih]
      next hblank =>
        rw [Bool.not_eq_true] at hblank
        rw [hblank] at hih
        rw [hih]

theorem dropAfterFrom_eq_self
    {p : Char} {text : List Char} (hchain : (p :: text).IsChain (FreeBehind behind)) :
    dropAfterFrom behind (behind p) text = text := by
  induction text generalizing p with
  | nil => rfl
  | cons c rest ih =>
      obtain ⟨hpair, hlater⟩ := List.isChain_cons_cons.mp hchain
      rw [dropAfterFrom, if_neg, ih hlater]
      rw [Bool.and_eq_true, not_and']
      exact fun hblank => (hpair hblank).2

theorem dropBlanksBefore_eq_self
    {text : List Char} (hchain : text.IsChain (FreeAround behind before)) :
    dropBlanksBefore before text = text := by
  induction text with
  | nil => rfl
  | cons c rest ih =>
      rw [dropBlanksBefore, if_neg, ih hchain.tail]
      rw [Bool.and_eq_true, not_and]
      intro hblank
      cases rest with
      | nil => simp [leadsTo, skipBlanks]
      | cons d later =>
          obtain ⟨hpair, -⟩ := List.isChain_cons_cons.mp hchain
          have hd : isBlank d = false := by
            by_contra hspace
            rw [Bool.not_eq_false] at hspace
            exact (hpair.1 hspace).1 hblank
          rw [leadsTo_of_not_isBlank hd]
          exact hpair.2 hblank

/-! ## Tidy texts -/

/-- Collapse the runs of blanks and drop them behind the one class and before the other. -/
def tidy (behind before : Char → Bool) (text : List Char) : List Char :=
  dropBlanksBefore before (dropBlanksAfter behind (collapse text))

structure Tidy (behind before : Char → Bool) (text : List Char) : Prop where
  spaces : OnlySpaces text
  neighbours : text.IsChain (FreeAround behind before)

theorem Tidy.of_infix {text part : List Char} (htidy : Tidy behind before text)
    (hpart : part <:+: text) : Tidy behind before part where
  spaces := fun c hc => htidy.spaces c (hpart.subset hc)
  neighbours := htidy.neighbours.infix hpart

theorem tidy_tidy
    (hvisible : Visible before) (hletter : behind 'a' = false) (text : List Char) :
    Tidy behind before (tidy behind before text) := by
  have hcollapsed : ('a' :: collapse text).IsChain Single := isChain_collapseFrom 'a' text
  have hbehind : ('a' :: dropBlanksAfter behind (collapse text)).IsChain (FreeBehind behind) := by
    have hdropped : ('a' :: dropAfterFrom behind (behind 'a') (collapse text)).IsChain
        (FreeBehind behind) := isChain_dropAfterFrom hcollapsed
    rwa [hletter] at hdropped
  have haround := isChain_dropBlanksBefore hvisible hbehind fun hblank => by contradiction
  have hsublist := (dropBlanksBefore_sublist before _).trans
    (dropAfterFrom_sublist behind false (collapse text))
  exact ⟨fun c hc => onlySpaces_collapseFrom false text c (hsublist.subset hc), haround.tail⟩

theorem Tidy.tidy_eq_self
    (hbehind : behind 'a' = false) {text : List Char} (htidy : Tidy behind before text) :
    tidy behind before text = text := by
  have haround : ('a' :: text).IsChain (FreeAround behind fun _ => false) :=
    (htidy.neighbours.imp fun _ _ hpair => ⟨hpair.1, by simp⟩).cons fun d _ =>
      ⟨fun _ => by simp [hbehind, isBlank], by simp⟩
  have hfree : ('a' :: text).IsChain (FreeBehind behind) := haround.imp fun _ _ hpair => hpair.1
  have hsingle : ('a' :: text).IsChain Single := hfree.imp fun _ _ hpair hblank => (hpair hblank).1
  have hcollapse : collapse text = text := collapseFrom_eq_self htidy.spaces hsingle
  have hafter : dropBlanksAfter behind text = text := by
    have hdropped := dropAfterFrom_eq_self hfree
    rwa [hbehind] at hdropped
  rw [tidy, hcollapse, hafter, dropBlanksBefore_eq_self htidy.neighbours]

theorem length_tidy_le (text : List Char) : (tidy behind before text).length ≤ text.length :=
  calc
    (tidy behind before text).length ≤ (dropBlanksAfter behind (collapse text)).length :=
      (dropBlanksBefore_sublist before _).length_le
    _ ≤ (collapse text).length := (dropAfterFrom_sublist behind false _).length_le
    _ ≤ text.length := length_collapseFrom_le false text

/-! ## Where a visible character comes from -/

theorem exists_suffix_cons
    {c : Char} {rest : List Char} {holds : List Char → Prop}
    (hrest : ∃ tail, c :: tail <:+ rest ∧ holds tail) (d : Char) :
    ∃ tail, c :: tail <:+ d :: rest ∧ holds tail := by
  obtain ⟨tail, hsuffix, htail⟩ := hrest
  exact ⟨tail, hsuffix.trans (List.suffix_cons d rest), htail⟩

theorem exists_suffix_of_collapseFrom
    {c : Char} (hc : isBlank c = false) {inRun : Bool} {text tail' : List Char}
    (htail : c :: tail' <:+ collapseFrom inRun text) :
    ∃ tail, c :: tail <:+ text ∧ tail' = collapse tail := by
  fun_induction collapseFrom inRun text with
  | case1 => simp at htail
  | case2 d rest hblank ih => exact exists_suffix_cons (ih htail) d
  | case3 inRun d rest hblank hfirst ih =>
      rcases List.suffix_cons_iff.mp htail with heq | hlater
      · obtain ⟨rfl, -⟩ := List.cons.inj heq
        contradiction
      · exact exists_suffix_cons (ih hlater) d
  | case4 inRun d rest hblank ih =>
      rcases List.suffix_cons_iff.mp htail with heq | hlater
      · obtain ⟨rfl, rfl⟩ := List.cons.inj heq
        exact ⟨rest, List.suffix_rfl, rfl⟩
      · exact exists_suffix_cons (ih hlater) d

theorem exists_suffix_of_dropAfterFrom
    {c : Char} (hc : behind c = false) {after : Bool} {text tail' : List Char}
    (htail : c :: tail' <:+ dropAfterFrom behind after text) :
    ∃ tail, c :: tail <:+ text ∧ tail' = dropBlanksAfter behind tail := by
  fun_induction dropAfterFrom behind after text with
  | case1 => simp at htail
  | case2 after d rest hdropped ih => exact exists_suffix_cons (ih htail) d
  | case3 after d rest hkept ih =>
      rcases List.suffix_cons_iff.mp htail with heq | hlater
      · obtain ⟨rfl, rfl⟩ := List.cons.inj heq
        exact ⟨rest, List.suffix_rfl, by rw [hc, dropBlanksAfter]⟩
      · exact exists_suffix_cons (ih hlater) d

theorem exists_suffix_of_dropBlanksBefore
    {c : Char} {text tail' : List Char} (htail : c :: tail' <:+ dropBlanksBefore before text) :
    ∃ tail, c :: tail <:+ text ∧ tail' = dropBlanksBefore before tail := by
  fun_induction dropBlanksBefore before text with
  | case1 => simp at htail
  | case2 d rest hdropped ih => exact exists_suffix_cons (ih htail) d
  | case3 d rest hkept ih =>
      rcases List.suffix_cons_iff.mp htail with heq | hlater
      · obtain ⟨rfl, rfl⟩ := List.cons.inj heq
        exact ⟨rest, List.suffix_rfl, rfl⟩
      · exact exists_suffix_cons (ih hlater) d

theorem exists_suffix_of_tidy
    {c : Char} (hblank : isBlank c = false) (hbehind : behind c = false)
    {text tail' : List Char} (htail : c :: tail' <:+ tidy behind before text) :
    ∃ tail, c :: tail <:+ text ∧ tail' = tidy behind before tail := by
  obtain ⟨free, hfree, rfl⟩ := exists_suffix_of_dropBlanksBefore htail
  obtain ⟨collapsed, hcollapsed, rfl⟩ := exists_suffix_of_dropAfterFrom hbehind hfree
  obtain ⟨tail, hsuffix, rfl⟩ := exists_suffix_of_collapseFrom hblank hcollapsed
  exact ⟨tail, hsuffix, rfl⟩

/-! ## How a tidied text begins -/

theorem tidy_cons {c : Char} (hblank : isBlank c = false) (hbehind : behind c = false)
    (rest : List Char) : tidy behind before (c :: rest) = c :: tidy behind before rest := by
  simp [tidy, collapse, collapseFrom, dropBlanksAfter, dropAfterFrom, dropBlanksBefore, hblank,
    hbehind]

theorem exists_tidy_cons {c : Char} (hblank : isBlank c = false) (behind before : Char → Bool)
    (rest : List Char) :
    ∃ rest', tidy behind before (c :: rest) = c :: rest' := by
  refine ⟨dropBlanksBefore before (dropAfterFrom behind (behind c) (collapse rest)), ?_⟩
  simp [tidy, collapse, collapseFrom, dropBlanksAfter, dropAfterFrom, dropBlanksBefore, hblank]

theorem noBlankFirst_tidy {text : List Char} (hfirst : NoBlankFirst text) :
    NoBlankFirst (tidy behind before text) := by
  cases text with
  | nil => exact hfirst
  | cons c rest =>
      have hc : isBlank c = false := hfirst c rfl
      obtain ⟨rest', hrest'⟩ := exists_tidy_cons hc behind before rest
      rw [hrest']
      exact noBlankFirst_cons hc

theorem exists_dropBlanksBefore_of_leadsTo
    (hvisible : Visible before) {text : List Char} (hleads : leadsTo before text) :
    ∃ c rest, before c ∧ dropBlanksBefore before text = c :: rest := by
  obtain ⟨gap, c, rest, hgap, hc, rfl⟩ := exists_of_leadsTo hleads
  refine ⟨c, dropBlanksBefore before rest, hc, ?_⟩
  induction gap with
  | nil => simp [dropBlanksBefore, hvisible c hc]
  | cons d gap ih =>
      obtain ⟨hd, hlater⟩ := List.forall_mem_cons.mp hgap
      have hleads : leadsTo before (gap ++ c :: rest) := by
        have hfirst : NoBlankFirst (c :: rest) := noBlankFirst_cons (hvisible c hc)
        rw [leadsTo, skipBlanks_append hlater hfirst]
        exact hc
      rw [List.cons_append, dropBlanksBefore, if_pos (Bool.and_eq_true_iff.mpr ⟨hd, hleads⟩)]
      exact ih hlater hleads

/-- A visible character at the beginning of the tidied text stood at the beginning of the text,
unless blanks disappear before it. -/
theorem eq_cons_of_tidy_eq_cons
    (hvisible : Visible before) {c : Char} (hblank : isBlank c = false)
    (hbefore : before c = false) {text rest' : List Char}
    (htidy : tidy behind before text = c :: rest') : ∃ rest, text = c :: rest := by
  cases text with
  | nil => simp [tidy, collapse, collapseFrom, dropBlanksAfter, dropAfterFrom,
      dropBlanksBefore] at htidy
  | cons d rest =>
      by_cases hd : isBlank d
      · have hspace : isBlank ' ' = true := rfl
        simp only [tidy, collapse, collapseFrom, if_pos hd, if_neg Bool.false_ne_true,
          dropBlanksAfter, dropAfterFrom, Bool.false_and, dropBlanksBefore, hspace,
          Bool.true_and] at htidy
        split at htidy
        next hleads =>
          obtain ⟨e, later, he, hdropped⟩ := exists_dropBlanksBefore_of_leadsTo hvisible hleads
          rw [hdropped] at htidy
          obtain ⟨rfl, -⟩ := List.cons.inj htidy
          rw [hbefore] at he
          contradiction
        next =>
          obtain ⟨rfl, -⟩ := List.cons.inj htidy
          contradiction
      · rw [Bool.not_eq_true] at hd
        obtain ⟨later, hkept⟩ := exists_tidy_cons hd behind before rest
        rw [hkept] at htidy
        exact ⟨rest, congrArg (· :: rest) (List.cons.inj htidy).1⟩

/-- Nor does tidying bring the characters of a visible word together. -/
theorem exists_eq_append_of_tidy_eq_append
    (hvisible : Visible before) {word text behind' : List Char}
    (hword : ∀ c ∈ word, isBlank c = false ∧ behind c = false ∧ before c = false)
    (htidy : tidy behind before text = word ++ behind') :
    ∃ rest, text = word ++ rest ∧ behind' = tidy behind before rest := by
  induction word generalizing text with
  | nil => exact ⟨text, rfl, htidy.symm⟩
  | cons c word ih =>
      obtain ⟨⟨hblank, hbehind, hbefore⟩, hlater⟩ := List.forall_mem_cons.mp hword
      obtain ⟨rest, rfl⟩ := eq_cons_of_tidy_eq_cons hvisible hblank hbefore htidy
      rw [tidy_cons hblank hbehind, List.cons_append] at htidy
      obtain ⟨rest', rfl, hrest'⟩ := ih hlater (List.cons.inj htidy).2
      exact ⟨rest', rfl, hrest'⟩

end Stencil.Text
