import Stencil.Files.Path
import Stencil.Proofs.Text.Search
import Stencil.Proofs.Text.Split
import Mathlib.Data.List.DropRight
import Mathlib.Data.List.Infix

/-!
# Names of paths

A slash in a text parts the names before it from the names behind it, and a directory has the names
of what lies in it, without the last one.  Double dots are resolved from the left.
-/

namespace Stencil.Files

open Stencil.Text

namespace Path

/-! ## Names of a text -/

theorem names_ofText_append_slash (front back : List Char) :
    (ofText (front ++ '/' :: back)).names = (ofText front).names ++ (ofText back).names := by
  simp only [ofText, splitAll_append, List.filter_append]

@[simp] theorem names_ofText_nil : (ofText []).names = [] := rfl

theorem names_ofText_slash (back : List Char) :
    (ofText ('/' :: back)).names = (ofText back).names :=
  names_ofText_append_slash [] back

theorem names_ofText_concat_slash (front : List Char) :
    (ofText (front ++ ['/'])).names = (ofText front).names := by
  rw [names_ofText_append_slash, names_ofText_nil, List.append_nil]

theorem names_ofText_of_notMem
    {name : List Char} (hslash : '/' ∉ name) (hidle : isIdleName name = false) :
    (ofText name).names = [name] := by
  simp [ofText, splitAll_of_notMem hslash, hidle]

theorem names_ofText_rdropWhile (text : List Char) :
    (ofText (text.rdropWhile (· == '/'))).names = (ofText text).names := by
  induction text using List.reverseRecOn with
  | nil => rfl
  | append_singleton front c ih =>
      by_cases hc : c = '/'
      · subst hc
        rw [List.rdropWhile_concat_pos _ _ _ (by rfl), ih, names_ofText_concat_slash]
      · rw [List.rdropWhile_concat_neg _ _ _ (by simpa using hc)]

theorem ofText_eq_of_names
    {text other : List Char} (hhead : text.head? = other.head?)
    (hnames : (ofText text).names = (ofText other).names) : ofText text = ofText other := by
  rw [ofText, ofText, mk.injEq]
  exact ⟨congrArg (· == some '/') hhead, hnames⟩

theorem ofText_of_relative {text : List Char} (hrelative : text.head? ≠ some '/') :
    ofText text = ⟨false, (ofText text).names⟩ := by
  simp [ofText, hrelative]

theorem ofText_double_slash (front back : List Char) :
    ofText (front ++ "/".toList ++ back) = ofText (front ++ "//".toList ++ back) := by
  have hnames : (ofText (front ++ '/' :: back)).names =
      (ofText (front ++ '/' :: '/' :: back)).names := by
    rw [names_ofText_append_slash, names_ofText_append_slash, names_ofText_slash]
  rw [List.append_assoc, List.append_assoc]
  refine ofText_eq_of_names ?_ hnames
  cases front <;> rfl

theorem ofText_double_dot_slash (front back : List Char) :
    ofText (front ++ "./".toList ++ back) = ofText (front ++ "././".toList ++ back) := by
  have hnames : (ofText ((front ++ ['.']) ++ '/' :: back)).names =
      (ofText ((front ++ ['.']) ++ '/' :: (['.'] ++ '/' :: back))).names := by
    rw [names_ofText_append_slash, names_ofText_append_slash, names_ofText_append_slash]
    rfl
  rw [List.append_assoc, List.append_assoc] at hnames
  rw [List.append_assoc, List.append_assoc]
  refine ofText_eq_of_names ?_ hnames
  cases front <;> rfl

theorem isIdleName_of_mem {name : List Char} {c : Char} (hc : c ∈ name) (hdot : c ≠ '.') :
    isIdleName name = false := by
  rw [isIdleName, Bool.or_eq_false_iff, List.isEmpty_eq_false_iff, beq_eq_false_iff_ne]
  refine ⟨List.ne_nil_of_mem hc, ?_⟩
  rintro rfl
  exact hdot (List.mem_singleton.mp hc)

theorem exists_mem_names_of_mem
    {text : List Char} {c : Char} (hc : c ∈ text) (hslash : c ≠ '/') (hdot : c ≠ '.') :
    ∃ name ∈ (ofText text).names, c ∈ name := by
  obtain ⟨name, hname, hmem⟩ := exists_mem_splitAll_of_mem hc hslash
  refine ⟨name, List.mem_filter.mpr ⟨hname, ?_⟩, hmem⟩
  rw [isIdleName_of_mem hmem hdot]
  rfl

/-! ## Double dots -/

theorem resolveNames_append (above front back : List (List Char)) :
    resolveNames above (front ++ back) =
      resolveNames (resolveNames above front).reverse back := by
  fun_induction resolveNames above front with
  | case1 above => rw [List.nil_append, List.reverse_reverse]
  | case2 above name rest hup ih => rw [List.cons_append, resolveNames, if_pos hup, ih]
  | case3 above name rest hdown ih => rw [List.cons_append, resolveNames, if_neg hdown, ih]

theorem resolveNames_of_notMem
    {names : List (List Char)} (hnames : ['.', '.'] ∉ names) (above : List (List Char)) :
    resolveNames above names = above.reverse ++ names := by
  induction names generalizing above with
  | nil => rw [resolveNames, List.append_nil]
  | cons name rest ih =>
      rw [List.mem_cons, not_or] at hnames
      rw [resolveNames, if_neg (by simpa using Ne.symm hnames.1), ih hnames.2,
        List.reverse_cons, List.append_assoc, List.singleton_append]

theorem resolveNames_concat
    {name : List Char} (hname : name ≠ ['.', '.']) (above front : List (List Char)) :
    resolveNames above (front ++ [name]) = resolveNames above front ++ [name] := by
  rw [resolveNames_append, resolveNames_of_notMem (by simpa using Ne.symm hname),
    List.reverse_reverse]

theorem notMem_resolveNames
    {above : List (List Char)} (habove : ['.', '.'] ∉ above) (names : List (List Char)) :
    ['.', '.'] ∉ resolveNames above names := by
  fun_induction resolveNames above names with
  | case1 above => rwa [List.mem_reverse]
  | case2 above name rest hup ih => exact ih fun hmem => habove (List.mem_of_mem_drop hmem)
  | case3 above name rest hdown ih =>
      apply ih
      rw [List.mem_cons, not_or]
      exact ⟨fun heq => hdown (by simp [heq]), habove⟩

/-- It does not matter whether the way to a directory is resolved before the way from it. -/
theorem resolveNames_resolveNames_append (front back : List (List Char)) :
    resolveNames [] (resolveNames [] front ++ back) = resolveNames [] (front ++ back) := by
  rw [resolveNames_append, resolveNames_append,
    resolveNames_of_notMem (notMem_resolveNames List.not_mem_nil front), List.reverse_nil,
    List.nil_append]

/-- To go down and up again leads nowhere. -/
theorem resolveNames_down_up
    {name : List Char} (hname : name ≠ ['.', '.']) (above front back : List (List Char)) :
    resolveNames above (front ++ name :: ['.', '.'] :: back) =
      resolveNames above (front ++ back) := by
  rw [resolveNames_append, resolveNames_append, resolveNames, if_neg (by simpa using hname),
    resolveNames]
  rfl

end Path

/-! ## Directories -/

theorem names_ofText_of_name
    {text : List Char} (hrelative : text.head? ≠ some '/')
    (hname : Path.isIdleName (lastName text) = false) :
    (Path.ofText text).names = (Path.ofText (directoryText text)).names ++ [lastName text] := by
  rw [lastName, splitLast?] at hname ⊢
  rw [directoryText]
  cases hlast : lastIndexOf? ['/'] text with
  | none =>
      rw [hlast] at hname
      have hslash : '/' ∉ text := by
        rw [← List.singleton_infix_iff]
        exact lastIndexOf?_eq_none_iff.mp hlast
      exact Path.names_ofText_of_notMem hslash hname
  | some position =>
      rw [hlast] at hname
      obtain ⟨front, back, rfl, rfl, hslash⟩ := exists_eq_append_of_lastIndexOf? hlast
      have hwhole : front ++ '/' :: back = (front ++ ['/']) ++ back := by simp
      have hlength : front.length + 1 = (front ++ ['/']).length := by simp
      have hhead : (front ++ '/' :: back).take (front.length + 1) = front ++ ['/'] := by
        rw [hwhole, hlength, List.take_left]
      have hback : (front ++ '/' :: back).drop (front.length + 1) = back := by
        rw [hwhole, hlength, List.drop_left]
      have hnotAll : (front ++ ['/']).all (· == '/') = false := by
        cases front with
        | nil => exact absurd rfl hrelative
        | cons c front =>
            have hc : c ≠ '/' := fun hc => hrelative (congrArg some hc)
            simp [hc]
      have hdirectory : (Path.ofText ((front ++ ['/']).reverse.dropWhile (· == '/')).reverse).names =
          (Path.ofText front).names :=
        (Path.names_ofText_rdropWhile _).trans (Path.names_ofText_concat_slash front)
      simp only [Option.map_some, List.length_singleton, hback] at hname
      simp only [Option.map_some, List.length_singleton, hback, hhead, hnotAll,
        Path.names_ofText_append_slash, Path.names_ofText_of_notMem hslash hname]
      rw [if_neg Bool.false_ne_true, hdirectory]

theorem directoryText_subset (text : List Char) : directoryText text ⊆ text := by
  rw [directoryText]
  split
  · exact List.nil_subset _
  · dsimp only
    split
    · exact List.take_subset _ _
    · exact List.Subset.trans (List.rdropWhile_prefix _ _).subset (List.take_subset _ _)

end Stencil.Files
