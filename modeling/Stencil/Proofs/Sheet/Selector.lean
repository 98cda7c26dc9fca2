import Stencil.Sheet.Prune
import Stencil.Proofs.Sheet.Reader
import Stencil.Proofs.Text.Word

/-!
# The classes of a selector

Pruning looks for classes in all of a selector, also in its quoted strings.  A quote is no part of
a name and no point, so what is found are the classes outside of the strings and what looks like
classes inside of them.  A rule is misjudged if the strings change the decision about it.
-/

namespace Stencil.Sheet

open Stencil.Text

/-! ## Where names end -/

/-- A character that is neither a point nor in a class name. -/
def SeparatesClasses (c : Char) : Prop :=
  c ≠ '.' ∧ continuesClass c = false

theorem startsClass_eq_false {c : Char} (hc : continuesClass c = false) :
    startsClass c = false := by
  rw [continuesClass, Bool.or_eq_false_iff] at hc
  rw [Bool.eq_false_iff]
  intro hstarts
  rw [startsClass, Bool.or_eq_true, beq_iff_eq] at hstarts
  have hword : isWord c = true := by
    rcases hstarts with rfl | halpha
    · rfl
    · exact isAlpha_isWord halpha
  rw [hc.2] at hword
  contradiction

theorem className?_append {c : Char} (hc : continuesClass c = false) (front behind : List Char) :
    className? (front ++ c :: behind) = className? front := by
  have hstarts := startsClass_eq_false hc
  have hhyphen : c ≠ '-' := by
    rintro rfl
    contradiction
  have htake (text : List Char) :
      (text ++ c :: behind).takeWhile continuesClass = text.takeWhile continuesClass := by
    induction text with
    | nil => rw [List.nil_append, List.takeWhile_cons_of_neg (by simp [hc]), List.takeWhile_nil]
    | cons d text ih => rw [List.cons_append, List.takeWhile_cons, List.takeWhile_cons, ih]
  cases front with
  | nil => simp [className?, hhyphen, hstarts]
  | cons d front =>
      by_cases hd : d = '-'
      · subst hd
        cases front with
        | nil => simp [className?, hstarts]
        | cons e front =>
            have hname := htake (e :: front)
            rw [List.cons_append] at hname
            simp [className?, hname]
      · have hname := htake (d :: front)
        rw [List.cons_append] at hname
        simp [className?, hd, hname]

theorem prefix_of_className? {text name : List Char} (hname : className? text = some name) :
    name <+: text := by
  unfold className? at hname
  split at hname
  next hyphen rest heq =>
    have htext : text = hyphen ++ rest := by
      split at heq
      next =>
        obtain ⟨rfl, rfl⟩ := Prod.mk.inj heq
        rfl
      next =>
        obtain ⟨rfl, rfl⟩ := Prod.mk.inj heq
        rfl
    split at hname
    next c tail =>
      rw [Option.ite_none_right_eq_some, Option.some.injEq] at hname
      rw [htext, ← hname.2]
      exact (List.prefix_append_right_inj hyphen).mpr (List.takeWhile_prefix continuesClass)
    next => contradiction

theorem selectorClasses_append
    {c : Char} (hc : SeparatesClasses c) (front behind : List Char) :
    selectorClasses (front ++ c :: behind) = selectorClasses front ++ selectorClasses behind := by
  fun_induction selectorClasses front with
  | case1 =>
      rw [List.nil_append, selectorClasses, if_neg (by simpa using hc.1), List.nil_append]
  | case2 d rest hpoint name hname ih =>
      have hprefix := prefix_of_className? hname
      rw [List.cons_append, selectorClasses, if_pos hpoint, className?_append hc.2, hname]
      simp only
      rw [List.drop_append_of_le_length hprefix.length_le, ih, List.cons_append]
  | case3 d rest hpoint hname ih =>
      rw [List.cons_append, selectorClasses, if_pos hpoint, className?_append hc.2, hname]
      exact ih
  | case4 d rest hpoint ih =>
      rw [List.cons_append, selectorClasses, if_neg hpoint, ih]

theorem selectorClasses_cons {c : Char} (hc : SeparatesClasses c) (behind : List Char) :
    selectorClasses (c :: behind) = selectorClasses behind := by
  have hcut := selectorClasses_append hc [] behind
  rwa [List.nil_append, selectorClasses, List.nil_append] at hcut

/-! ## Outside and inside of strings -/

def quoted? : List Char → Option (Hit Unit)
  | '"' :: rest => (quotedRestWidth? '"' rest).map fun width => ⟨width + 1, ()⟩
  | '\'' :: rest => (quotedRestWidth? '\'' rest).map fun width => ⟨width + 1, ()⟩
  | _ => none

theorem separatesClasses_quoteMark (double : Bool) : SeparatesClasses (quoteMark double) := by
  cases double <;> exact ⟨by decide, by decide⟩

theorem exists_of_quoted? {text : List Char} {hit : Hit Unit} (hquoted : quoted? text = some hit) :
    ∃ double inner behind,
      text = quoteMark double :: (inner ++ quoteMark double :: behind) ∧
        hit.width = inner.length + 2 := by
  have hstring (double : Bool) (rest : List Char)
      (hwidth : (quotedRestWidth? (quoteMark double) rest).map
        (fun width => (⟨width + 1, ()⟩ : Hit Unit)) = some hit) :
      ∃ inner behind, rest = inner ++ quoteMark double :: behind ∧
        hit.width = inner.length + 2 := by
    obtain ⟨width, hrest, rfl⟩ := Option.map_eq_some_iff.mp hwidth
    obtain ⟨string, behind, hstring, rfl, rfl⟩ := exists_quotedRest_of_quotedRestWidth? hrest
    obtain ⟨inner, rfl⟩ := hstring.exists_concat
    exact ⟨inner, behind, by simp, by simp⟩
  unfold quoted? at hquoted
  split at hquoted
  next rest =>
    obtain ⟨inner, behind, rfl, hwidth⟩ := hstring true rest hquoted
    exact ⟨true, inner, behind, rfl, hwidth⟩
  next rest =>
    obtain ⟨inner, behind, rfl, hwidth⟩ := hstring false rest hquoted
    exact ⟨false, inner, behind, rfl, hwidth⟩
  next => contradiction

theorem flatMap_selectorClasses_cutFrom (held text : List Char) :
    ((cutFrom quoted? held text).flatMap fun piece => selectorClasses piece.text) =
      selectorClasses (held.reverse ++ text) := by
  fun_induction cutFrom quoted? held text with
  | case1 held => simp [Piece.text]
  | case2 held c rest hnone ih =>
      rw [ih, List.reverse_cons, List.append_assoc, List.singleton_append]
  | case3 held c rest hit hquoted ih =>
      obtain ⟨double, inner, behind, htext, hwidth⟩ := exists_of_quoted? hquoted
      obtain ⟨rfl, rfl⟩ := List.cons.inj htext
      have hmark := separatesClasses_quoteMark double
      have hfound : (inner ++ quoteMark double :: behind).take (hit.width - 1) =
          inner ++ [quoteMark double] := by
        rw [hwidth, List.take_append, List.take_of_length_le (by omega)]
        have hone : inner.length + 2 - 1 - inner.length = 1 := by omega
        rw [hone, List.take_succ_cons, List.take_zero]
      have hbehind : (inner ++ quoteMark double :: behind).drop (hit.width - 1) = behind := by
        have hone : inner.length + 2 - 1 = inner.length + 1 := by omega
        rw [hwidth, hone, List.drop_length_add_append]
        rfl
      rw [hbehind] at ih ⊢
      rw [List.flatMap_cons, List.flatMap_cons, ih, hfound, selectorClasses_append hmark,
        selectorClasses_append hmark]
      simp only [Piece.text, List.reverse_nil, List.nil_append, selectorClasses_cons hmark,
        selectorClasses_append hmark, selectorClasses, List.append_nil]

def classesOutside (selector : List Char) : List (List Char) :=
  (cut quoted? selector).flatMap fun piece => selectorClasses piece.kept

/-- What looks like classes inside of the quoted strings of a selector. -/
def classesInside (selector : List Char) : List (List Char) :=
  (hits quoted? selector).flatMap selectorClasses

theorem mem_flatMap_pieces_iff {pieces : List (Piece Unit)} {name : List Char} :
    name ∈ pieces.flatMap (fun piece => selectorClasses piece.text) ↔
      name ∈ pieces.flatMap (fun piece => selectorClasses piece.kept) ∨
        name ∈ (pieces.filterMap Piece.found?).flatMap selectorClasses := by
  induction pieces with
  | nil => simp
  | cons piece rest ih =>
      cases piece with
      | plain text =>
          have hnone : Piece.found? (Piece.plain text : Piece Unit) = none := rfl
          rw [List.filterMap_cons_none hnone, List.flatMap_cons, List.flatMap_cons,
            List.mem_append, List.mem_append, or_assoc, ← ih]
          rfl
      | hit found value =>
          have hsome : Piece.found? (Piece.hit found value) = some found := rfl
          have hkept : selectorClasses (Piece.hit found value).kept = [] := by
            rw [Piece.kept, selectorClasses]
          rw [List.filterMap_cons_some hsome, List.flatMap_cons, List.flatMap_cons,
            List.flatMap_cons, hkept, List.nil_append, List.mem_append, List.mem_append,
            or_left_comm, ← ih]
          rfl

theorem mem_selectorClasses_iff {selector name : List Char} :
    name ∈ selectorClasses selector ↔
      name ∈ classesOutside selector ∨ name ∈ classesInside selector := by
  have hpieces := flatMap_selectorClasses_cutFrom [] selector
  rw [List.reverse_nil, List.nil_append] at hpieces
  rw [← hpieces]
  exact mem_flatMap_pieces_iff

/-! ## Unused rules -/

variable {used : List (List Char)} {selector : List Char}

/-- Rules of such selectors are kept whatever classes they name. -/
def IsExempt (selector : List Char) : Prop :=
  selector.head? = some '@' ∨ ":root".toList <:+: selector

/-- The selector names classes, but none that is used. -/
structure IsUnused (used : List (List Char)) (selector : List Char) : Prop where
  notExempt : ¬ IsExempt (trim selector)
  named : classesOutside (trim selector) ≠ []
  notUsed : ∀ name ∈ classesOutside (trim selector), name ∉ used

instance (selector : List Char) : Decidable (IsExempt selector) :=
  inferInstanceAs (Decidable (_ ∨ _))

theorem isUnused_iff :
    IsUnused used selector ↔
      ¬ IsExempt (trim selector) ∧ classesOutside (trim selector) ≠ [] ∧
        ∀ name ∈ classesOutside (trim selector), name ∉ used :=
  ⟨fun ⟨notExempt, named, notUsed⟩ => ⟨notExempt, named, notUsed⟩,
    fun ⟨notExempt, named, notUsed⟩ => ⟨notExempt, named, notUsed⟩⟩

instance (used : List (List Char)) : DecidablePred (IsUnused used) := fun selector =>
  decidable_of_iff
    (¬ IsExempt (trim selector) ∧ classesOutside (trim selector) ≠ [] ∧
      (classesOutside (trim selector)).all (!used.contains ·) = true)
    (by simp [isUnused_iff])

/-- The quoted strings of the selector change the decision about its rule. -/
structure IsMisjudged (used : List (List Char)) (selector : List Char) : Prop where
  notExempt : ¬ IsExempt (trim selector)
  notUsed : ∀ name ∈ classesOutside (trim selector), name ∉ used
  changed :
    (classesOutside (trim selector) = [] ∧ classesInside (trim selector) ≠ [] ∧
      ∀ name ∈ classesInside (trim selector), name ∉ used) ∨
    (classesOutside (trim selector) ≠ [] ∧ ∃ name ∈ classesInside (trim selector), name ∈ used)

theorem isMisjudged_iff :
    IsMisjudged used selector ↔
      ¬ IsExempt (trim selector) ∧ (∀ name ∈ classesOutside (trim selector), name ∉ used) ∧
        ((classesOutside (trim selector) = [] ∧ classesInside (trim selector) ≠ [] ∧
            ∀ name ∈ classesInside (trim selector), name ∉ used) ∨
          (classesOutside (trim selector) ≠ [] ∧
            ∃ name ∈ classesInside (trim selector), name ∈ used)) :=
  ⟨fun ⟨notExempt, notUsed, changed⟩ => ⟨notExempt, notUsed, changed⟩,
    fun ⟨notExempt, notUsed, changed⟩ => ⟨notExempt, notUsed, changed⟩⟩

instance (used : List (List Char)) : DecidablePred (IsMisjudged used) := fun selector =>
  decidable_of_iff
    (¬ IsExempt (trim selector) ∧
      (classesOutside (trim selector)).all (!used.contains ·) = true ∧
        ((classesOutside (trim selector) = [] ∧ classesInside (trim selector) ≠ [] ∧
            (classesInside (trim selector)).all (!used.contains ·) = true) ∨
          (classesOutside (trim selector) ≠ [] ∧
            (classesInside (trim selector)).any (used.contains ·) = true)))
    (by simp [isMisjudged_iff])

theorem keeps_eq_false_iff :
    keeps used selector = false ↔
      ¬ IsExempt (trim selector) ∧ selectorClasses (trim selector) ≠ [] ∧
        ∀ name ∈ selectorClasses (trim selector), name ∉ used := by
  have hcontains : contains ":root".toList (trim selector) = true ↔
      ":root".toList <:+: trim selector := isSome_indexOf?_iff
  rw [← Bool.not_eq_true, keeps]
  simp only [Bool.or_eq_true, beq_iff_eq, hcontains, List.isEmpty_iff, List.any_eq_true,
    List.contains_iff_mem, not_or, not_exists, not_and, IsExempt, and_assoc, ne_eq]

theorem selectorClasses_ne_nil_iff {selector : List Char} :
    selectorClasses selector ≠ [] ↔ classesOutside selector ≠ [] ∨ classesInside selector ≠ [] := by
  simp only [ne_eq, List.eq_nil_iff_forall_not_mem, mem_selectorClasses_iff, not_or, forall_and,
    not_and_or]

/-- Pruning drops the rules that are unused, except where strings change the decision. -/
theorem keeps_eq_false_iff_isUnused_iff :
    (keeps used selector = false ↔ IsUnused used selector) ↔ ¬ IsMisjudged used selector := by
  have hsplit : (∀ name ∈ selectorClasses (trim selector), name ∉ used) ↔
      (∀ name ∈ classesOutside (trim selector), name ∉ used) ∧
        ∀ name ∈ classesInside (trim selector), name ∉ used := by
    simp only [mem_selectorClasses_iff, or_imp, forall_and]
  have hvacuous (names : List (List Char)) (hnil : names = []) : ∀ name ∈ names, name ∉ used := by
    subst hnil
    exact List.forall_mem_nil _
  have houtside := hvacuous (classesOutside (trim selector))
  have hinside := hvacuous (classesInside (trim selector))
  have hsome : (∃ name ∈ classesInside (trim selector), name ∈ used) ↔
      ¬ ∀ name ∈ classesInside (trim selector), name ∉ used := by
    simp only [not_forall, not_not, exists_prop]
  rw [keeps_eq_false_iff, isUnused_iff, isMisjudged_iff, selectorClasses_ne_nil_iff, hsplit, hsome]
  grind

end Stencil.Sheet
