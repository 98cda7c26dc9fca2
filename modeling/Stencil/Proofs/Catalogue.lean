import Stencil.Catalogue
import Stencil.Proofs.Data.Table
import Stencil.Proofs.Text.Search
import Stencil.Proofs.Text.Split

/-!
# What a target stands for

A path stands for a function if the module before its last colon is there, with every package on the
way to it, and the names behind the colon lead from the module to the function.  Whatever stands for
nothing is an invalid registration, unless the path of the module is empty or relative.
-/

namespace Stencil

open Stencil.Text

variable {φ : Type}

/-- Each name is a member of what the names before it lead to. -/
inductive Item.Leads : Item φ → List (List Char) → Item φ → Prop
  | here (item : Item φ) : Leads item [] item
  | member {item inner found : Item φ} {name : List Char} {rest : List (List Char)}
      (hname : item.member? name = some inner) (hrest : Leads inner rest found) :
      Leads item (name :: rest) found

/-- The path of a module is neither empty nor relative. -/
def IsAbsolute (module : List Char) : Prop :=
  module ≠ [] ∧ module.head? ≠ some '.'

/-- The target is a path, and the module before its last colon is not absolute. -/
def Target.LacksModule (target : Target φ) : Prop :=
  ∃ module members, target = .data (.text (String.ofList (module ++ ':' :: members))) ∧
    ':' ∉ members ∧ ¬ IsAbsolute module

namespace Catalogue

variable {catalogue : Catalogue φ} {target : Target φ}

/-- The module is there, and so is every package that it lies in. -/
structure Holds (catalogue : Catalogue φ) (module : List Char) (item : Item φ) : Prop where
  absolute : IsAbsolute module
  found : Table.get? catalogue module = some item
  packages : ∀ package, package ++ ['.'] <+: module → Table.contains catalogue package

inductive StandsFor (catalogue : Catalogue φ) : Target φ → φ → Prop
  | function (function : φ) : StandsFor catalogue (.function function) function
  | path {module members : List Char} {item found : Item φ} {function : φ}
      (hcolon : ':' ∉ members) (hmodule : catalogue.Holds module item)
      (hleads : item.Leads (splitAll ['.'] members) found)
      (hfunction : found.function? = some function) :
      StandsFor catalogue (.data (.text (String.ofList (module ++ ':' :: members)))) function

/-! ## Packages -/

theorem exists_concat_prefix_cons_iff
    {text : List Char} {c mark : Char} {property : List Char → Prop} :
    (∃ package, package ++ [mark] <+: c :: text ∧ property package) ↔
      (c = mark ∧ property []) ∨ ∃ rest, rest ++ [mark] <+: text ∧ property (c :: rest) := by
  constructor
  · rintro ⟨_ | ⟨d, rest⟩, hstarts, hproperty⟩
    · rw [List.nil_append, List.cons_prefix_cons] at hstarts
      exact .inl ⟨hstarts.1.symm, hproperty⟩
    · rw [List.cons_append, List.cons_prefix_cons] at hstarts
      obtain ⟨rfl, hstarts⟩ := hstarts
      exact .inr ⟨rest, hstarts, hproperty⟩
  · rintro (⟨rfl, hproperty⟩ | ⟨rest, hstarts, hproperty⟩)
    · exact ⟨[], by simp, hproperty⟩
    · exact ⟨c :: rest, List.cons_prefix_cons.mpr ⟨rfl, hstarts⟩, hproperty⟩

def grown (passed name : List Char) : List Char :=
  if passed.isEmpty then name else passed ++ '.' :: name

theorem grown_append_dot (passed name rest : List Char) :
    grown passed (name ++ '.' :: rest) = grown passed name ++ '.' :: rest := by
  cases passed <;> simp [grown]

theorem grown_of_ne_nil {passed : List Char} (hpassed : passed ≠ []) (name : List Char) :
    grown passed name = passed ++ '.' :: name := by
  rw [grown, if_neg (by simpa using hpassed)]

theorem dottedBeginnings_cons (passed name : List Char) (rest : List (List Char)) :
    dottedBeginnings passed (name :: rest) =
      grown passed name :: dottedBeginnings (grown passed name) rest := rfl

theorem mem_dottedBeginnings_splitAllFrom
    {passed held here text : List Char}
    (hstart : passed = [] → held = [] → text.head? ≠ some '.') :
    here ∈ dottedBeginnings passed (splitAllFrom ['.'] held 0 text) ↔
      here = grown passed (held.reverse ++ text) ∨
        ∃ package, package ++ ['.'] <+: text ∧ here = grown passed (held.reverse ++ package) := by
  induction text generalizing passed held with
  | nil => simp [splitAllFrom, dottedBeginnings, grown]
  | cons c text ih =>
      rw [splitAllFrom_cons, exists_concat_prefix_cons_iff]
      by_cases hc : c = '.'
      · subst hc
        have hgrown : grown passed held.reverse ≠ [] := by
          cases passed with
          | nil => simpa [grown] using fun hheld => hstart rfl hheld rfl
          | cons d passed => simp [grown]
        rw [if_pos rfl, dottedBeginnings_cons, List.mem_cons, splitAll,
          ih fun hnil => absurd hnil hgrown]
        simp only [List.reverse_nil, List.nil_append, List.append_nil, grown_append_dot,
          grown_of_ne_nil hgrown, true_and]
        exact or_left_comm
      · rw [if_neg hc, ih fun _ hnil => absurd hnil (List.cons_ne_nil c held)]
        simp [hc]

/-- The beginnings of an absolute path are the packages on the way and the path itself. -/
theorem mem_dottedBeginnings_iff {module here : List Char} (hmodule : IsAbsolute module) :
    here ∈ dottedBeginnings [] (splitAll ['.'] module) ↔
      here = module ∨ here ++ ['.'] <+: module := by
  rw [splitAll, mem_dottedBeginnings_splitAllFrom fun _ _ => hmodule.2]
  simp [grown]

theorem firstMissing?_eq_none_iff {module : List Char} (hmodule : IsAbsolute module) :
    catalogue.firstMissing? module = none ↔
      Table.contains catalogue module ∧
        ∀ package, package ++ ['.'] <+: module → Table.contains catalogue package := by
  rw [firstMissing?, List.find?_eq_none]
  simp only [mem_dottedBeginnings_iff hmodule, Bool.not_eq_true', Bool.not_eq_false]
  constructor
  · exact fun hall => ⟨hall module (.inl rfl), fun package hpackage => hall package (.inr hpackage)⟩
  · rintro ⟨hself, hpackages⟩ here (rfl | hpackage)
    · exact hself
    · exact hpackages here hpackage

/-! ## Functions -/

theorem Item.leads_nil_iff {item found : Item φ} : item.Leads [] found ↔ item = found := by
  constructor
  · rintro ⟨⟩
    rfl
  · rintro rfl
    exact .here item

theorem Item.leads_cons_iff {item found : Item φ} {name : List Char} {rest : List (List Char)} :
    item.Leads (name :: rest) found ↔
      ∃ inner, item.member? name = some inner ∧ inner.Leads rest found := by
  constructor
  · rintro (_ | ⟨hname, hrest⟩)
    exact ⟨_, hname, hrest⟩
  · rintro ⟨inner, hname, hrest⟩
    exact .member hname hrest

theorem follow_eq_ok_iff {item found : Item φ} {names : List (List Char)} :
    follow item names = .ok found ↔ item.Leads names found := by
  induction names generalizing item with
  | nil => rw [follow, Item.leads_nil_iff, Except.ok.injEq]
  | cons name rest ih =>
      rw [follow, Item.leads_cons_iff]
      cases item.member? name with
      | none => simp
      | some inner => simp [ih]

/-- A registration is refused as invalid for the reason that the error gives. -/
def IsRefused (name : List Char) (outcome : Except RegistrationFailure φ) : Prop :=
  ∃ reason, outcome = .error (.invalid (.invalidRegistration name reason))

theorem functionAt_eq_ok_iff {name shown members : List Char} {item : Item φ} {function : φ} :
    functionAt name shown members item = .ok function ↔
      ∃ found, item.Leads (splitAll ['.'] members) found ∧ found.function? = some function := by
  simp only [← follow_eq_ok_iff]
  rw [functionAt]
  cases follow item (splitAll ['.'] members) with
  | error part => simp
  | ok found => cases hfunction : found.function? <;> simp [hfunction]

theorem functionAt_cases (name shown members : List Char) (item : Item φ) :
    (∃ function, functionAt name shown members item = .ok function) ∨
      IsRefused name (functionAt name shown members item) := by
  rw [functionAt]
  cases follow item (splitAll ['.'] members) with
  | error part => exact .inr ⟨_, rfl⟩
  | ok found =>
      cases hfunction : found.function? with
      | none =>
          simp only [hfunction]
          exact .inr ⟨_, rfl⟩
      | some function =>
          simp only [hfunction]
          exact .inl ⟨function, rfl⟩

section

variable {module members : List Char}

theorem named_of_not_isAbsolute
    (hcolon : ':' ∉ members) (hmodule : ¬ IsAbsolute module) (name : List Char) :
    catalogue.named name (module ++ ':' :: members) = .error .emptyModule ∨
      catalogue.named name (module ++ ':' :: members) = .error .relativeModule := by
  rw [named, splitLast?_eq_some_iff.mpr ⟨rfl, hcolon⟩]
  by_cases hempty : module = []
  · exact .inl (if_pos (List.isEmpty_iff.mpr hempty))
  · have hdot : module.head? = some '.' := by
      by_contra hdot
      exact hmodule ⟨hempty, hdot⟩
    right
    simp [hempty, hdot]

theorem named_of_holds
    {item : Item φ} (hcolon : ':' ∉ members) (hmodule : catalogue.Holds module item)
    (name : List Char) :
    catalogue.named name (module ++ ':' :: members) =
      functionAt name (module ++ ':' :: members) members item := by
  have hmissing : catalogue.firstMissing? module = none := by
    rw [firstMissing?_eq_none_iff hmodule.absolute, Table.contains_eq_isSome_get?, hmodule.found]
    exact ⟨rfl, hmodule.packages⟩
  rw [named, splitLast?_eq_some_iff.mpr ⟨rfl, hcolon⟩]
  simp [hmodule.absolute.1, hmodule.absolute.2, hmissing, hmodule.found]

theorem isRefused_named
    (hcolon : ':' ∉ members) (hmodule : IsAbsolute module)
    (hnone : ∀ item, ¬ catalogue.Holds module item) (name : List Char) :
    IsRefused name (catalogue.named name (module ++ ':' :: members)) := by
  rw [named, splitLast?_eq_some_iff.mpr ⟨rfl, hcolon⟩]
  simp only [List.isEmpty_iff, hmodule.1, beq_iff_eq, hmodule.2, if_false]
  cases hmissing : catalogue.firstMissing? module with
  | some missing => exact ⟨_, rfl⟩
  | none =>
      obtain ⟨hself, hpackages⟩ := (firstMissing?_eq_none_iff hmodule).mp hmissing
      rw [Table.contains_eq_isSome_get?] at hself
      obtain ⟨item, hfound⟩ := Option.isSome_iff_exists.mp hself
      exact absurd ⟨hmodule, hfound, hpackages⟩ (hnone item)

end

/-- There are three ways for a path to go: it stands for a function, its module is not absolute, or
it is refused. -/
theorem named_cases (catalogue : Catalogue φ) (name path : List Char) :
    (∃ function, catalogue.named name path = .ok function ∧
        catalogue.StandsFor (.data (.text (String.ofList path))) function) ∨
      ((catalogue.named name path = .error .emptyModule ∨
          catalogue.named name path = .error .relativeModule) ∧
        (Target.data (.text (String.ofList path)) : Target φ).LacksModule) ∨
      IsRefused name (catalogue.named name path) := by
  cases hsplit : splitLast? [':'] path with
  | none =>
      right; right
      rw [named, hsplit]
      exact ⟨_, rfl⟩
  | some parts =>
      obtain ⟨module, members⟩ := parts
      obtain ⟨rfl, hcolon⟩ := splitLast?_eq_some_iff.mp hsplit
      by_cases hmodule : IsAbsolute module
      · by_cases hholds : ∃ item, catalogue.Holds module item
        · obtain ⟨item, hholds⟩ := hholds
          rw [named_of_holds hcolon hholds]
          rcases functionAt_cases name (module ++ ':' :: members) members item with
            ⟨function, hok⟩ | hrefused
          · obtain ⟨found, hleads, hfunction⟩ := functionAt_eq_ok_iff.mp hok
            exact .inl ⟨function, hok, .path hcolon hholds hleads hfunction⟩
          · exact .inr (.inr hrefused)
        · exact .inr (.inr (isRefused_named hcolon hmodule (not_exists.mp hholds) name))
      · exact .inr (.inl ⟨named_of_not_isAbsolute hcolon hmodule name,
          module, members, rfl, hcolon, hmodule⟩)

theorem resolve_cases (catalogue : Catalogue φ) (name : List Char) (target : Target φ) :
    (∃ function, catalogue.resolve name target = .ok function ∧
        catalogue.StandsFor target function) ∨
      ((catalogue.resolve name target = .error .emptyModule ∨
          catalogue.resolve name target = .error .relativeModule) ∧ target.LacksModule) ∨
      IsRefused name (catalogue.resolve name target) := by
  cases target with
  | function function => exact .inl ⟨function, rfl, .function function⟩
  | data value =>
      cases value with
      | text path =>
          have hcases := named_cases catalogue name path.toList
          rw [String.ofList_toList] at hcases
          exact hcases
      | _ => exact .inr (.inr ⟨_, rfl⟩)

theorem resolve_eq_ok_iff (name : List Char) {function : φ} :
    catalogue.resolve name target = .ok function ↔ catalogue.StandsFor target function := by
  constructor
  · intro hok
    rcases resolve_cases catalogue name target with
      ⟨other, hother, hstands⟩ | ⟨hlost | hlost, -⟩ | ⟨reason, hrefused⟩
    · obtain rfl := Except.ok.inj (hother.symm.trans hok)
      exact hstands
    all_goals simp_all
  · rintro (_ | ⟨hcolon, hmodule, hleads, hfunction⟩)
    · rfl
    · rw [resolve, String.toList_ofList, named_of_holds hcolon hmodule]
      exact functionAt_eq_ok_iff.mpr ⟨_, hleads, hfunction⟩

theorem StandsFor.unique {function other : φ} (hfunction : catalogue.StandsFor target function)
    (hother : catalogue.StandsFor target other) : function = other := by
  rw [← resolve_eq_ok_iff []] at hfunction hother
  exact Except.ok.inj (hfunction.symm.trans hother)

/-- Only a target without an absolute module fails in another way than by a refusal. -/
theorem lacksModule_iff (name : List Char) :
    target.LacksModule ↔
      catalogue.resolve name target = .error .emptyModule ∨
        catalogue.resolve name target = .error .relativeModule := by
  constructor
  · rintro ⟨module, members, rfl, hcolon, hmodule⟩
    rw [resolve, String.toList_ofList]
    exact named_of_not_isAbsolute hcolon hmodule name
  · intro hlost
    rcases resolve_cases catalogue name target with
      ⟨function, hok, -⟩ | ⟨-, hlacks⟩ | ⟨reason, hrefused⟩
    · simp [hok] at hlost
    · exact hlacks
    · simp [hrefused] at hlost

end Catalogue

end Stencil
