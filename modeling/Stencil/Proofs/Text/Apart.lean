import Stencil.Proofs.Text.Spacing

/-!
# Texts that are written with single spaces

A text consists of visible items, and what matters about the blanks is whether some stand before an
item.  Tidying a text writes one space where blanks stand between two characters that may be parted,
and nothing else between characters.
-/

namespace Stencil.Text

variable {α : Type}

/-! ## Visible items -/

/-- The visible items, each with the answer whether a blank stands before it; `gap` says that one
stands before the first. -/
def apartFrom (gap : Bool) : List (Option α) → List (Bool × α)
  | [] => []
  | none :: rest => apartFrom true rest
  | some item :: rest => (gap, item) :: apartFrom false rest

def visible? (c : Char) : Option Char :=
  if isBlank c then none else some c

def apart (text : List Char) : List (Bool × Char) :=
  apartFrom false (text.map visible?)

theorem visible?_of_isBlank {c : Char} (hblank : isBlank c) : visible? c = none :=
  if_pos hblank

theorem visible?_of_not_isBlank {c : Char} (hblank : isBlank c = false) : visible? c = some c := by
  rw [visible?, hblank, if_neg Bool.false_ne_true]

theorem map_visible?_of_allBlank {gap : List Char} (hgap : AllBlank gap) :
    gap.map visible? = List.replicate gap.length none :=
  List.map_eq_replicate_iff.mpr fun c hc => visible?_of_isBlank (hgap c hc)

theorem apartFrom_replicate_none (gap : Bool) (count : Nat) (items : List (Option α)) :
    apartFrom gap (List.replicate count none ++ items) =
      apartFrom (gap || count != 0) items := by
  induction count generalizing gap with
  | zero => simp
  | succ count ih =>
      rw [List.replicate_succ, List.cons_append, apartFrom, ih, Bool.true_or]
      simp

theorem apartFrom_blanks
    {gap : List Char} (hgap : AllBlank gap) (before : Bool) (items : List (Option Char)) :
    apartFrom before (gap.map visible? ++ items) = apartFrom (before || !gap.isEmpty) items := by
  rw [map_visible?_of_allBlank hgap, apartFrom_replicate_none]
  cases gap <;> rfl

/-! ## Writing with single spaces -/

/-- A space where blanks stand between two items that may be parted. -/
def space (parts : α → α → Bool) (last : Option α) (gap : Bool) (item : α) : List Char :=
  if gap && last.any (parts · item) then [' '] else []

/-- The characters with a space between two of them that may be parted, if blanks stood there;
`last` is the character before. -/
def spacedFrom (parts : Char → Char → Bool) (last : Option Char) :
    List (Bool × Char) → List Char
  | [] => []
  | (gap, c) :: rest => space parts last gap c ++ c :: spacedFrom parts (some c) rest

/-- The text with a space in place of the blanks between two characters that may be parted. -/
def spaced (parts : Char → Char → Bool) (text : List Char) : List Char :=
  spacedFrom parts none (apart text)

theorem space_none (parts : α → α → Bool) (gap : Bool) (item : α) :
    space parts none gap item = [] := by
  cases gap <;> rfl

/-! ## A tidied text from its beginning -/

variable {behind before : Char → Bool}

theorem collapseFrom_true {text : List Char} (htext : NoBlankFirst text) :
    collapseFrom true text = collapse text := by
  cases text with
  | nil => rfl
  | cons c rest =>
      have hc : ¬ isBlank c = true := Bool.eq_false_iff.mp (htext c rfl)
      rw [collapse, collapseFrom, collapseFrom, if_neg hc, if_neg hc]

theorem collapse_append
    {gap text : List Char} (hgap : AllBlank gap) (hnonempty : gap ≠ [])
    (htext : NoBlankFirst text) : collapse (gap ++ text) = ' ' :: collapse text := by
  have hrun {run : List Char} (hrun : AllBlank run) :
      collapseFrom true (run ++ text) = collapse text := by
    induction run with
    | nil => exact collapseFrom_true htext
    | cons c run ih =>
        obtain ⟨hc, hlater⟩ := List.forall_mem_cons.mp hrun
        rw [List.cons_append, collapseFrom, if_pos hc, if_pos rfl, ih hlater]
  obtain ⟨c, run, rfl⟩ := List.exists_cons_of_ne_nil hnonempty
  obtain ⟨hc, hlater⟩ := List.forall_mem_cons.mp hgap
  rw [collapse, List.cons_append, collapseFrom, if_pos hc, if_neg Bool.false_ne_true, hrun hlater]

/-- The blanks behind a character of the class are gone as if they had never been. -/
theorem dropAfterFrom_true_collapse (text : List Char) :
    dropAfterFrom behind true (collapse text) =
      dropBlanksAfter behind (collapse (skipBlanks text)) := by
  have hvisible : dropAfterFrom behind true (collapse (skipBlanks text)) =
      dropBlanksAfter behind (collapse (skipBlanks text)) := by
    have hfirst := noBlankFirst_skipBlanks text
    cases hskip : skipBlanks text with
    | nil => rfl
    | cons c rest =>
        rw [hskip] at hfirst
        have hc : isBlank c = false := hfirst c rfl
        simp [collapse, collapseFrom, dropBlanksAfter, dropAfterFrom, hc]
  obtain ⟨gap, hgap, -, htext⟩ := exists_eq_append_skipBlanks text
  by_cases hnonempty : gap = []
  · rw [hnonempty, List.nil_append] at htext
    rw [← htext] at hvisible ⊢
    exact hvisible
  · have hcollapse : collapse text = ' ' :: collapse (skipBlanks text) := by
      nth_rewrite 1 [htext]
      exact collapse_append hgap hnonempty (noBlankFirst_skipBlanks text)
    have hspace : isBlank ' ' = true := rfl
    rw [hcollapse, dropAfterFrom, hspace, Bool.and_self, if_pos rfl, hvisible]

theorem tidy_nil : tidy behind before [] = [] := rfl

theorem tidy_cons_of_behind {c : Char} (hblank : isBlank c = false) (hbehind : behind c)
    (rest : List Char) :
    tidy behind before (c :: rest) = c :: tidy behind before (skipBlanks rest) := by
  have hcollapse : collapse (c :: rest) = c :: collapse rest := by
    rw [collapse, collapseFrom, hblank, if_neg Bool.false_ne_true, collapse]
  rw [tidy, hcollapse, dropBlanksAfter, dropAfterFrom, Bool.false_and, if_neg Bool.false_ne_true,
    hbehind, dropAfterFrom_true_collapse, dropBlanksBefore, hblank, Bool.false_and,
    if_neg Bool.false_ne_true, tidy]

theorem leadsTo_dropBlanksAfter_collapse {text : List Char} (htext : NoBlankFirst text) :
    leadsTo before (dropBlanksAfter behind (collapse text)) = leadsTo before text := by
  cases text with
  | nil => rfl
  | cons c rest =>
      have hc : isBlank c = false := htext c rfl
      simp [collapse, collapseFrom, dropBlanksAfter, dropAfterFrom, leadsTo_of_not_isBlank, hc]

/-- Of a run of blanks a space is left unless it stands before a character of the class. -/
theorem tidy_append
    (hbehind : behind ' ' = false) {gap text : List Char} (hgap : AllBlank gap)
    (htext : NoBlankFirst text) :
    tidy behind before (gap ++ text) =
      (if !gap.isEmpty && !leadsTo before text then [' '] else []) ++ tidy behind before text := by
  by_cases hnonempty : gap = []
  · rw [hnonempty]
    rfl
  · have hspace : isBlank ' ' = true := rfl
    rw [tidy, collapse_append hgap hnonempty htext, dropBlanksAfter, dropAfterFrom,
      Bool.false_and, if_neg Bool.false_ne_true, hbehind, ← dropBlanksAfter, dropBlanksBefore,
      hspace, Bool.true_and, leadsTo_dropBlanksAfter_collapse htext,
      List.isEmpty_eq_false_iff.mpr hnonempty]
    cases leadsTo before text <;> rfl

theorem allBlank_space (written : Bool) : AllBlank (if written then [' '] else []) := by
  cases written <;> simp [AllBlank, isBlank]

theorem skipBlanks_tidy (hbehind : behind ' ' = false) (text : List Char) :
    skipBlanks (tidy behind before text) = tidy behind before (skipBlanks text) := by
  have hfirst := noBlankFirst_skipBlanks text
  obtain ⟨gap, hgap, -, htext⟩ := exists_eq_append_skipBlanks text
  generalize skipBlanks text = visible at htext hfirst ⊢
  rw [htext, tidy_append hbehind hgap hfirst,
    skipBlanks_append (allBlank_space _) (noBlankFirst_tidy hfirst)]

/-! ## A tidied text is a text with single spaces -/

/-- Two characters may be parted if the first one is not of the one class, nor the second one of
the other. -/
def mayPart (behind before : α → Bool) (a b : α) : Bool :=
  !behind a && !before b

theorem spacedFrom_of_behind {p : Char} (hp : behind p) (items : List (Bool × Char)) :
    spacedFrom (mayPart behind before) (some p) items =
      spacedFrom (mayPart behind before) none items := by
  cases items with
  | nil => rfl
  | cons item rest =>
      have hspace : space (mayPart behind before) (some p) item.1 item.2 = [] := by
        simp [space, mayPart, hp]
      rw [spacedFrom, spacedFrom, hspace, space_none]

theorem spacedFrom_apartFrom_cons
    {c : Char} (hblank : isBlank c = false) (parts : Char → Char → Bool) (last : Option Char)
    (gap : Bool) (rest : List Char) :
    spacedFrom parts last (apartFrom gap ((c :: rest).map visible?)) =
      space parts last gap c ++ c :: spacedFrom parts (some c) (apart rest) := by
  rw [List.map_cons, visible?_of_not_isBlank hblank, apartFrom, spacedFrom, apart]

theorem spaced_cons {c : Char} (hblank : isBlank c = false) (parts : Char → Char → Bool)
    (rest : List Char) :
    spaced parts (c :: rest) = c :: spacedFrom parts (some c) (apart rest) := by
  rw [spaced, apart, spacedFrom_apartFrom_cons hblank, space_none, List.nil_append]

theorem apart_append {gap : List Char} (hgap : AllBlank gap) (text : List Char) :
    apart (gap ++ text) = apartFrom (!gap.isEmpty) (text.map visible?) := by
  rw [apart, List.map_append, apartFrom_blanks hgap, Bool.false_or]

theorem exists_spacedFrom_apart_append
    {word : List Char} (hword : ∀ c ∈ word, isBlank c = false) (parts : Char → Char → Bool)
    (p : Char) (text : List Char) :
    ∃ back, spacedFrom parts (some p) (apart (word ++ text)) = word ++ back := by
  induction word generalizing p with
  | nil => exact ⟨_, rfl⟩
  | cons c word ih =>
      obtain ⟨hc, hlater⟩ := List.forall_mem_cons.mp hword
      obtain ⟨back, hback⟩ := ih hlater c
      refine ⟨back, ?_⟩
      rw [List.cons_append, apart, spacedFrom_apartFrom_cons hc, hback]
      rfl

theorem infix_spaced
    {word text : List Char} (hword : ∀ c ∈ word, isBlank c = false) (hoccurs : word <:+: text)
    (parts : Char → Char → Bool) : word <:+: spaced parts text := by
  obtain ⟨front, back, rfl⟩ := hoccurs
  have hfrom (last : Option Char) (gap : Bool) :
      word <:+: spacedFrom parts last (apartFrom gap ((front ++ (word ++ back)).map visible?)) := by
    induction front generalizing last gap with
    | nil =>
        cases word with
        | nil => exact List.nil_infix
        | cons c word =>
            obtain ⟨hc, hlater⟩ := List.forall_mem_cons.mp hword
            obtain ⟨rest, hrest⟩ := exists_spacedFrom_apart_append hlater parts c back
            refine ⟨space parts last gap c, rest, ?_⟩
            rw [List.nil_append, List.cons_append, spacedFrom_apartFrom_cons hc, hrest]
            simp
    | cons d front ih =>
        rw [List.cons_append]
        cases hd : isBlank d with
        | true =>
            rw [List.map_cons, visible?_of_isBlank hd]
            exact ih last true
        | false =>
            rw [spacedFrom_apartFrom_cons hd]
            exact ((ih (some d) false).trans (List.suffix_cons d _).isInfix).trans
              (List.suffix_append _ _).isInfix
  rw [List.append_assoc]
  exact hfrom none false

theorem filter_space (parts : Char → Char → Bool) (last : Option Char) (gap : Bool) (c : Char) :
    (space parts last gap c).filter (!isBlank ·) = [] := by
  rw [space]
  split <;> rfl

theorem filter_spaced (parts : Char → Char → Bool) (text : List Char) :
    (spaced parts text).filter (!isBlank ·) = text.filter (!isBlank ·) := by
  have hfrom (last : Option Char) (gap : Bool) :
      (spacedFrom parts last (apartFrom gap (text.map visible?))).filter (!isBlank ·) =
        text.filter (!isBlank ·) := by
    induction text generalizing last gap with
    | nil => rfl
    | cons c rest ih =>
        cases hc : isBlank c with
        | true =>
            rw [List.map_cons, visible?_of_isBlank hc, apartFrom, ih, List.filter_cons_of_neg]
            simp [hc]
        | false =>
            have hlater := ih (some c) false
            rw [spacedFrom_apartFrom_cons hc, List.filter_append, filter_space, List.nil_append,
              List.filter_cons_of_pos (by simp [hc]), List.filter_cons_of_pos (by simp [hc]),
              apart, hlater]
  exact hfrom none false

theorem spaced_skipBlanks (parts : Char → Char → Bool) (text : List Char) :
    spaced parts (skipBlanks text) = spaced parts text := by
  obtain ⟨gap, hgap, -, htext⟩ := exists_eq_append_skipBlanks text
  have hfirst := noBlankFirst_skipBlanks text
  generalize skipBlanks text = rest at htext hfirst
  rw [htext, spaced, spaced, apart_append hgap, apart]
  cases rest with
  | nil => rfl
  | cons c rest =>
      have hc : isBlank c = false := hfirst c rfl
      rw [spacedFrom_apartFrom_cons hc, spacedFrom_apartFrom_cons hc, space_none, space_none]

theorem not_allBlank_tidy {c : Char} (hblank : isBlank c = false) (rest : List Char) :
    ¬ AllBlank (tidy behind before (c :: rest)) := by
  obtain ⟨rest', htidy⟩ := exists_tidy_cons hblank behind before rest
  rw [htidy]
  intro hall
  rw [hall c List.mem_cons_self] at hblank
  contradiction

/-- Behind a character that is not of the one class the blanks are written as the space that they
become. -/
theorem trimEnd_tidy_of_skipBlanks
    (hbehind : behind ' ' = false) {p : Char} (hp : behind p = false) {text : List Char}
    (hvisible : trimEnd (tidy behind before (skipBlanks text)) =
      spaced (mayPart behind before) (skipBlanks text)) :
    trimEnd (tidy behind before text) =
      spacedFrom (mayPart behind before) (some p) (apart text) := by
  have hfirst := noBlankFirst_skipBlanks text
  obtain ⟨gap, hgap, -, htext⟩ := exists_eq_append_skipBlanks text
  generalize skipBlanks text = visible at htext hfirst hvisible
  rw [htext, apart_append hgap, tidy_append hbehind hgap hfirst]
  cases visible with
  | nil =>
      have hlast : AllBlank (if !gap.isEmpty && !leadsTo before [] then [' '] else []) :=
        allBlank_space _
      rw [tidy_nil, List.append_nil, trimEnd_eq_nil_iff.mpr hlast]
      rfl
  | cons c later =>
      have hc : isBlank c = false := hfirst c rfl
      have hspace : space (mayPart behind before) (some p) (!gap.isEmpty) c =
          if !gap.isEmpty && !before c then [' '] else [] := by
        rw [space, Option.any_some, mayPart, hp, Bool.not_false, Bool.true_and]
      rw [spacedFrom_apartFrom_cons hc, ← spaced_cons hc, ← hvisible,
        trimEnd_append (not_allBlank_tidy hc later), leadsTo_of_not_isBlank hc, hspace]

theorem trimEnd_tidy
    (hbehind : behind ' ' = false) {text : List Char} (htext : NoBlankFirst text) :
    trimEnd (tidy behind before text) = spaced (mayPart behind before) text := by
  induction hlength : text.length using Nat.strong_induction_on generalizing text with
  | _ length ih =>
      subst hlength
      cases text with
      | nil => rfl
      | cons c rest =>
          have hc : isBlank c = false := htext c rfl
          have hshorter : (skipBlanks rest).length < (c :: rest).length :=
            Nat.lt_succ_of_le (skipBlanks_suffix rest).length_le
          have hlater := ih _ hshorter (noBlankFirst_skipBlanks rest) rfl
          rw [spaced_cons hc]
          cases hclass : behind c with
          | true =>
              rw [tidy_cons_of_behind hc hclass, trimEnd_cons hc, hlater, spaced_skipBlanks,
                spacedFrom_of_behind hclass, spaced]
          | false =>
              rw [tidy_cons hc hclass, trimEnd_cons hc,
                trimEnd_tidy_of_skipBlanks hbehind hclass hlater]

/-- Tidying and trimming a text leaves single spaces between the characters that may be parted. -/
theorem trim_tidy (hbehind : behind ' ' = false) (text : List Char) :
    trim (tidy behind before text) = spaced (mayPart behind before) text := by
  rw [trim, skipBlanks_tidy hbehind, trimEnd_tidy hbehind (noBlankFirst_skipBlanks text),
    spaced_skipBlanks]

end Stencil.Text
