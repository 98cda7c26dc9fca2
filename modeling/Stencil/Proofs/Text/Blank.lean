import Stencil.Text.Blank
import Stencil.Text.Numeric
import Mathlib.Data.List.TakeWhile

/-!
# Laws of blanks

Blanks belong to no word.  A run of blanks is skipped as a whole, and what follows it is left as it
is.
-/

namespace Stencil.Text

def blankCodes : List Nat :=
  List.range' 9 5 ++ List.range' 28 5 ++ [0x85, 0xA0, 0x1680] ++ List.range' 0x2000 11 ++
    [0x2028, 0x2029, 0x202F, 0x205F, 0x3000]

theorem toNat_mem_blankCodes {c : Char} (hblank : isBlank c) : c.toNat ∈ blankCodes := by
  simp only [isBlank, Bool.or_eq_true, Bool.and_eq_true, decide_eq_true_eq, beq_iff_eq] at hblank
  simp only [blankCodes, List.mem_append, List.mem_range'_1, List.mem_cons, List.not_mem_nil]
  omega

theorem isWord_eq_false_of_isBlank {c : Char} (hblank : isBlank c) : isWord c = false := by
  have hcodes : ∀ code ∈ blankCodes, isWord (Char.ofNat code) = false := by decide +kernel
  have hword := hcodes c.toNat (toNat_mem_blankCodes hblank)
  rwa [Char.ofNat_toNat] at hword

theorem isBlank_eq_false_of_isWord {c : Char} (hword : isWord c) : isBlank c = false := by
  by_contra hblank
  rw [Bool.not_eq_false] at hblank
  rw [isWord_eq_false_of_isBlank hblank] at hword
  contradiction

/-- Every character is a blank. -/
def AllBlank (text : List Char) : Prop :=
  ∀ c ∈ text, isBlank c

/-- No blank stands at the beginning. -/
def NoBlankFirst (text : List Char) : Prop :=
  ∀ c ∈ text.head?, isBlank c = false

theorem noBlankFirst_cons {c : Char} {text : List Char} (hc : isBlank c = false) :
    NoBlankFirst (c :: text) := by
  intro d hd
  rw [List.head?_cons, Option.mem_some_iff] at hd
  subst d
  exact hc

theorem skipBlanks_of_noBlankFirst {text : List Char} (htext : NoBlankFirst text) :
    skipBlanks text = text := by
  cases text with
  | nil => rfl
  | cons c rest =>
      have hc : isBlank c = false := htext c rfl
      simp [skipBlanks, hc]

theorem skipBlanks_append {gap text : List Char} (hgap : AllBlank gap) (htext : NoBlankFirst text) :
    skipBlanks (gap ++ text) = text := by
  rw [skipBlanks, List.dropWhile_append_of_pos hgap]
  exact skipBlanks_of_noBlankFirst htext

theorem blankWidth_append
    {gap text : List Char} (hgap : AllBlank gap) (htext : NoBlankFirst text) :
    blankWidth (gap ++ text) = gap.length := by
  rw [blankWidth, List.takeWhile_append_of_pos hgap]
  cases text with
  | nil => simp
  | cons c rest =>
      have hc : isBlank c = false := htext c rfl
      simp [hc]

theorem exists_eq_append_skipBlanks (text : List Char) :
    ∃ gap, AllBlank gap ∧ gap.length = blankWidth text ∧ text = gap ++ skipBlanks text :=
  ⟨text.takeWhile isBlank, fun _ hc => List.mem_takeWhile_imp hc, rfl,
    List.takeWhile_append_dropWhile.symm⟩

theorem skipBlanks_suffix (text : List Char) : skipBlanks text <:+ text :=
  List.dropWhile_suffix isBlank

theorem noBlankFirst_skipBlanks (text : List Char) : NoBlankFirst (skipBlanks text) := by
  intro c hc
  have hhead := List.head?_dropWhile_not isBlank text
  rw [Option.mem_def] at hc
  rw [skipBlanks] at hc
  rw [hc] at hhead
  simpa using hhead

theorem skipBlanks_append_of_noBlankFirst
    {text behind : List Char} (hbehind : NoBlankFirst behind) :
    skipBlanks (text ++ behind) = skipBlanks text ++ behind := by
  obtain ⟨gap, hgap, -, htext⟩ := exists_eq_append_skipBlanks text
  have hfirst : NoBlankFirst (skipBlanks text ++ behind) := by
    intro c hc
    rw [List.head?_append, Option.mem_def, Option.or_eq_some_iff] at hc
    rcases hc with hc | ⟨-, hc⟩
    · exact noBlankFirst_skipBlanks text c hc
    · exact hbehind c hc
  have hsplit : text ++ behind = gap ++ (skipBlanks text ++ behind) := by
    rw [← List.append_assoc, ← htext]
  rw [hsplit, skipBlanks_append hgap hfirst]

theorem trimEnd_append_of_noBlankFirst_reverse
    {front text : List Char} (hfront : NoBlankFirst front.reverse) :
    trimEnd (front ++ text) = front ++ trimEnd text := by
  rw [trimEnd, List.reverse_append, skipBlanks_append_of_noBlankFirst hfront, List.reverse_append,
    List.reverse_reverse, trimEnd]

theorem trimEnd_cons {c : Char} (hblank : isBlank c = false) (rest : List Char) :
    trimEnd (c :: rest) = c :: trimEnd rest := by
  have hfirst : NoBlankFirst [c].reverse := noBlankFirst_cons hblank
  exact trimEnd_append_of_noBlankFirst_reverse hfirst

theorem trimEnd_isPrefix (text : List Char) : trimEnd text <+: text := by
  rw [trimEnd, ← List.reverse_suffix, List.reverse_reverse]
  exact skipBlanks_suffix _

theorem noBlankFirst_of_prefix
    {text front : List Char} (htext : NoBlankFirst text) (hfront : front <+: text) :
    NoBlankFirst front := by
  obtain ⟨behind, rfl⟩ := hfront
  intro c hc
  apply htext c
  rw [Option.mem_def] at hc ⊢
  rw [List.head?_append, hc]
  rfl

theorem trim_trim (text : List Char) : trim (trim text) = trim text := by
  have hfirst : NoBlankFirst (trim text) :=
    noBlankFirst_of_prefix (noBlankFirst_skipBlanks text) (trimEnd_isPrefix _)
  have hlast : skipBlanks (trim text).reverse = (trim text).reverse := by
    rw [trim, trimEnd, List.reverse_reverse]
    exact skipBlanks_of_noBlankFirst (noBlankFirst_skipBlanks _)
  calc
    trim (trim text) = trimEnd (skipBlanks (trim text)) := rfl
    _ = trimEnd (trim text) := by rw [skipBlanks_of_noBlankFirst hfirst]
    _ = trim text := by rw [trimEnd, hlast, List.reverse_reverse]

theorem trim_isInfix (text : List Char) : trim text <:+: text := by
  have hend : trim text <+: skipBlanks text := trimEnd_isPrefix _
  exact hend.isInfix.trans (skipBlanks_suffix text).isInfix

/-! ## The blanks at the end -/

theorem exists_eq_trimEnd_append (text : List Char) :
    ∃ gap, AllBlank gap ∧ text = trimEnd text ++ gap := by
  obtain ⟨gap, hgap, -, htext⟩ := exists_eq_append_skipBlanks text.reverse
  refine ⟨gap.reverse, fun c hc => hgap c (List.mem_reverse.mp hc), ?_⟩
  rw [trimEnd, ← List.reverse_append, ← htext, List.reverse_reverse]

theorem trimEnd_eq_nil_iff {text : List Char} : trimEnd text = [] ↔ AllBlank text := by
  rw [trimEnd, List.reverse_eq_nil_iff, skipBlanks, List.dropWhile_eq_nil_iff]
  exact forall_congr' fun c => by rw [List.mem_reverse]

theorem trim_eq_nil_iff {text : List Char} : trim text = [] ↔ AllBlank text := by
  rw [trim, trimEnd_eq_nil_iff]
  constructor
  · intro hrest c hc
    obtain ⟨gap, hgap, -, htext⟩ := exists_eq_append_skipBlanks text
    rw [htext, List.mem_append] at hc
    exact hc.elim (hgap c) (hrest c)
  · exact fun htext c hc => htext c ((skipBlanks_suffix text).subset hc)

theorem trimEnd_append {text : List Char} (htext : ¬ AllBlank text) (front : List Char) :
    trimEnd (front ++ text) = front ++ trimEnd text := by
  have hkept : (text.reverse.dropWhile isBlank).isEmpty = false := by
    rw [List.isEmpty_eq_false_iff]
    intro hnil
    apply htext
    rw [← trimEnd_eq_nil_iff, trimEnd, skipBlanks, hnil, List.reverse_nil]
  rw [trimEnd, List.reverse_append, skipBlanks, List.dropWhile_append, hkept,
    if_neg Bool.false_ne_true, List.reverse_append, List.reverse_reverse, trimEnd, skipBlanks]

theorem skipBlanks_trimEnd (text : List Char) : skipBlanks (trimEnd text) = trim text := by
  obtain ⟨gap, hgap, -, htext⟩ := exists_eq_append_skipBlanks text
  rw [trim]
  by_cases hblank : AllBlank (skipBlanks text)
  · have hall : AllBlank text := by
      rw [htext]
      exact List.forall_mem_append.mpr ⟨hgap, hblank⟩
    rw [trimEnd_eq_nil_iff.mpr hall, trimEnd_eq_nil_iff.mpr hblank]
    rfl
  · have hfirst : NoBlankFirst (trimEnd (skipBlanks text)) :=
      noBlankFirst_of_prefix (noBlankFirst_skipBlanks text) (trimEnd_isPrefix _)
    calc
      skipBlanks (trimEnd text) = skipBlanks (trimEnd (gap ++ skipBlanks text)) := by rw [← htext]
      _ = trimEnd (skipBlanks text) := by
        rw [trimEnd_append hblank, skipBlanks_append hgap hfirst]

theorem trimEnd_eq_self_iff {text : List Char} :
    trimEnd text = text ↔ ∀ c ∈ text.getLast?, isBlank c = false := by
  rw [trimEnd, List.reverse_eq_iff, ← List.head?_reverse]
  constructor
  · intro hkept
    rw [← hkept]
    exact noBlankFirst_skipBlanks text.reverse
  · exact skipBlanks_of_noBlankFirst

theorem trimEnd_trimEnd (text : List Char) : trimEnd (trimEnd text) = trimEnd text := by
  have hlast : NoBlankFirst (trimEnd text).reverse := by
    rw [trimEnd, List.reverse_reverse]
    exact noBlankFirst_skipBlanks _
  rw [trimEnd, skipBlanks_of_noBlankFirst hlast, List.reverse_reverse]

end Stencil.Text
