import Stencil.Proofs.Catalogue
import Stencil.Proofs.Data.Table
import Stencil.Proofs.Text.Blank
import Stencil.Proofs.Work
import Stencil.Registry
import Mathlib.Data.Char
import Mathlib.Data.List.Lex

/-!
# Lookups after registrations

Only a registration that goes through changes a registry.  So a lookup finds what was registered
last under its name, and the names are those under which something was registered.  A registration
that does not go through is invalid, with the exception of those that lack a module.
-/

namespace Stencil

open Stencil.Data Stencil.Text

/-! ## Names in order -/

namespace TemplateFault

def precedes (a b : List Char) : Bool :=
  !(List.lex b a fun x y => decide (x.toNat < y.toNat))

theorem precedes_iff_le {a b : List Char} : precedes a b = true ↔ a ≤ b := by
  have hlex : (List.lex b a fun x y => decide (x.toNat < y.toNat)) = true ↔ b < a := by
    rw [List.lex_eq_true_iff_lex]
    simp only [decide_eq_true_eq]
    exact Iff.rfl
  rw [precedes, Bool.not_eq_true', Bool.eq_false_iff, ne_eq, hlex, not_lt]

theorem mem_sortTexts {texts : List (List Char)} {text : List Char} :
    text ∈ sortTexts texts ↔ text ∈ texts :=
  (List.mergeSort_perm texts _).mem_iff

/-- Texts that differ from each other are in strict order when they are sorted. -/
theorem pairwise_lt_sortTexts {texts : List (List Char)} (htexts : texts.Nodup) :
    (sortTexts texts).Pairwise (· < ·) := by
  have htrans (a b c : List Char) (hab : precedes a b) (hbc : precedes b c) : precedes a c := by
    rw [precedes_iff_le] at hab hbc ⊢
    exact hab.trans hbc
  have htotal (a b : List Char) : (precedes a b || precedes b a) = true := by
    rw [Bool.or_eq_true, precedes_iff_le, precedes_iff_le]
    exact le_total a b
  have hle : (sortTexts texts).Pairwise (precedes · · = true) :=
    List.pairwise_mergeSort htrans htotal texts
  have hne : (sortTexts texts).Pairwise (· ≠ ·) :=
    (List.mergeSort_perm texts _).nodup_iff.mpr htexts
  exact (hle.and hne).imp fun ⟨hab, hneq⟩ => lt_of_le_of_ne (precedes_iff_le.mp hab) hneq

end TemplateFault

namespace Registry

variable {φ : Type}

/-! ## Runs -/

inductive Kind where
  | renderers
  | blocks

/-- A block needs a name that is not blank. -/
def Kind.Admits : Kind → List Char → Prop
  | .renderers, _ => True
  | .blocks, name => ¬ AllBlank name

/-- The registration of a target under a name. -/
structure Addition (φ : Type) where
  name : List Char
  target : Target φ

namespace Addition

variable (addition : Addition φ) (kind : Kind) (catalogue : Catalogue φ)

def grow (registry : Registry φ) : Except RegistrationFailure (Registry φ) :=
  match kind with
  | .renderers => registry.add catalogue addition.name addition.target
  | .blocks =>
    registry.addNamed catalogue (.text (String.ofList addition.name)) addition.target

def perform : ExceptT RegistrationFailure (StateM (Registry φ)) Unit := do
  let registry ← MonadState.get
  let grown ← ExceptT.mk (pure (addition.grow kind catalogue registry))
  set grown

/-- The name is admitted, and the target stands for the function. -/
def Gives (function : φ) : Prop :=
  kind.Admits addition.name ∧ catalogue.StandsFor addition.target function

end Addition

/-- The registry after additions to an empty one, whether or not they went through. -/
def afterAll (kind : Kind) (catalogue : Catalogue φ) (additions : List (Addition φ)) : Registry φ :=
  additions.foldl (fun registry addition => (runOn registry (addition.perform kind catalogue)).2) []

/-- An addition gave the function to the name, and no later one gave it another. -/
def IsLatest (kind : Kind) (catalogue : Catalogue φ) (name : List Char) (function : φ)
    (additions : List (Addition φ)) : Prop :=
  ∃ before addition after, additions = before ++ addition :: after ∧ addition.name = name ∧
    addition.Gives kind catalogue function ∧
      ∀ later ∈ after, later.name = name → ∀ other, ¬ later.Gives kind catalogue other

/-- The outcome reports an invalid registration. -/
def IsInvalid (outcome : Except RegistrationFailure Unit) : Prop :=
  ∃ shown reason, outcome = .error (.invalid (.invalidRegistration shown reason))

/-! ## Single additions -/

section

variable {kind : Kind} {catalogue : Catalogue φ} {addition : Addition φ} {function : φ}

theorem grow_of_not_admits (hadmits : ¬ kind.Admits addition.name) (registry : Registry φ) :
    ∃ shown reason, addition.grow kind catalogue registry =
      .error (.invalid (.invalidRegistration shown reason)) := by
  cases kind with
  | renderers => exact absurd trivial hadmits
  | blocks =>
      have hblank : trim addition.name = [] := trim_eq_nil_iff.mpr (not_not.mp hadmits)
      rw [Addition.grow, addNamed, String.toList_ofList, hblank]
      exact ⟨_, _, rfl⟩

theorem grow_of_admits (hadmits : kind.Admits addition.name) (registry : Registry φ) :
    addition.grow kind catalogue registry =
      (catalogue.resolve addition.name addition.target).map
        (Table.put registry addition.name ·) := by
  have hadd : registry.add catalogue addition.name addition.target =
      (catalogue.resolve addition.name addition.target).map
        (Table.put registry addition.name ·) := by
    rw [add]
    cases catalogue.resolve addition.name addition.target <;> rfl
  cases kind with
  | renderers => exact hadd
  | blocks =>
      have hname : trim addition.name ≠ [] := fun hnil => hadmits (trim_eq_nil_iff.mp hnil)
      rw [Addition.grow, addNamed, String.toList_ofList, if_neg (by simpa using hname), hadd]

/-- An addition leaves what it makes of the registry, or the registry itself. -/
theorem runOn_perform (registry : Registry φ) :
    runOn registry (addition.perform kind catalogue) =
      match addition.grow kind catalogue registry with
      | .ok grown => (.ok (), grown)
      | .error failure => (.error failure, registry) := by
  rw [Addition.perform, runOn_bind_of_ok (runOn_get registry), runOn_bind]
  cases addition.grow kind catalogue registry <;> rfl

theorem runOn_perform_of_gives
    (hgives : addition.Gives kind catalogue function) (registry : Registry φ) :
    runOn registry (addition.perform kind catalogue) =
      (.ok (), Table.put registry addition.name function) := by
  rw [runOn_perform, grow_of_admits hgives.1, (Catalogue.resolve_eq_ok_iff _).mpr hgives.2]
  rfl

/-- An addition that gives nothing fails, and it is invalid unless it lacks a module. -/
theorem runOn_perform_of_not_gives
    (hnone : ∀ function, ¬ addition.Gives kind catalogue function) (registry : Registry φ) :
    ∃ failure, runOn registry (addition.perform kind catalogue) = (.error failure, registry) ∧
      (IsInvalid (.error failure) ↔
        ¬ (kind.Admits addition.name ∧ addition.target.LacksModule)) := by
  rw [runOn_perform]
  by_cases hadmits : kind.Admits addition.name
  · rw [grow_of_admits hadmits]
    rcases Catalogue.resolve_cases catalogue addition.name addition.target with
      ⟨function, -, hstands⟩ | ⟨hlost, hlacks⟩ | ⟨reason, hrefused⟩
    · exact absurd ⟨hadmits, hstands⟩ (hnone function)
    · rcases hlost with hlost | hlost <;> rw [hlost] <;>
        exact ⟨_, rfl, by simp [IsInvalid, hadmits, hlacks]⟩
    · have hlacks : ¬ addition.target.LacksModule := by
        rw [Catalogue.lacksModule_iff addition.name, hrefused]
        simp
      rw [hrefused]
      exact ⟨_, rfl, by simp [IsInvalid, hlacks]⟩
  · obtain ⟨shown, reason, hgrow⟩ := grow_of_not_admits hadmits registry
    rw [hgrow]
    exact ⟨_, rfl, by simp [IsInvalid, hadmits]⟩

theorem get?_perform_iff {name : List Char} {registry : Registry φ} :
    (runOn registry (addition.perform kind catalogue)).2.get? name = some function ↔
      (addition.name = name ∧ addition.Gives kind catalogue function) ∨
        registry.get? name = some function ∧
          (addition.name = name → ∀ other, ¬ addition.Gives kind catalogue other) := by
  by_cases hgives : ∃ own, addition.Gives kind catalogue own
  · obtain ⟨own, hgives⟩ := hgives
    have hunique (other : φ) (hother : addition.Gives kind catalogue other) : other = own :=
      hother.2.unique hgives.2
    rw [runOn_perform_of_gives hgives, get?]
    by_cases hname : addition.name = name
    · subst hname
      rw [Table.get?_put_self, Option.some.injEq]
      constructor
      · rintro rfl
        exact .inl ⟨rfl, hgives⟩
      · rintro (⟨-, hfunction⟩ | ⟨-, hnone⟩)
        · exact (hunique function hfunction).symm
        · exact absurd hgives (hnone rfl own)
    · rw [Table.get?_put_of_ne _ _ (Ne.symm hname)]
      simp [hname, get?]
  · have hnone := not_exists.mp hgives
    obtain ⟨failure, hfailure, -⟩ := runOn_perform_of_not_gives hnone registry
    rw [hfailure]
    simp [hnone]

theorem nodup_keys_perform {registry : Registry φ} (hkeys : (Table.keys registry).Nodup) :
    (Table.keys (runOn registry (addition.perform kind catalogue)).2).Nodup := by
  by_cases hgives : ∃ own, addition.Gives kind catalogue own
  · obtain ⟨own, hgives⟩ := hgives
    rw [runOn_perform_of_gives hgives]
    exact Table.nodup_keys_put hkeys
  · obtain ⟨failure, hfailure, -⟩ := runOn_perform_of_not_gives (not_exists.mp hgives) registry
    rw [hfailure]
    exact hkeys

end

/-! ## Histories -/

section

variable {kind : Kind} {catalogue : Catalogue φ} {addition : Addition φ}
  {additions : List (Addition φ)} {name : List Char} {function : φ}

theorem afterAll_concat (additions : List (Addition φ)) (addition : Addition φ) :
    afterAll kind catalogue (additions ++ [addition]) =
      (runOn (afterAll kind catalogue additions) (addition.perform kind catalogue)).2 := by
  rw [afterAll, List.foldl_append]
  rfl

theorem isLatest_concat_iff :
    IsLatest kind catalogue name function (additions ++ [addition]) ↔
      (addition.name = name ∧ addition.Gives kind catalogue function) ∨
        IsLatest kind catalogue name function additions ∧
          (addition.name = name → ∀ other, ¬ addition.Gives kind catalogue other) := by
  constructor
  · rintro ⟨before, own, after, hadditions, hname, hgives, hafter⟩
    rcases concat_eq_append_cons_iff.mp hadditions with ⟨-, rfl, -⟩ | ⟨between, rfl, rfl⟩
    · exact .inl ⟨hname, hgives⟩
    · refine .inr ⟨⟨before, own, between, rfl, hname, hgives, ?_⟩, ?_⟩
      · exact fun later hlater => hafter later (List.mem_append_left _ hlater)
      · exact hafter addition (List.mem_append_right _ (List.mem_singleton_self _))
  · rintro (⟨hname, hgives⟩ | ⟨⟨before, own, after, rfl, hname, hgives, hafter⟩, hlast⟩)
    · exact ⟨additions, addition, [], rfl, hname, hgives, fun later hlater => by simp at hlater⟩
    · refine ⟨before, own, after ++ [addition], by simp, hname, hgives, fun later hlater => ?_⟩
      rcases List.mem_append.mp hlater with hlater | hlater
      · exact hafter later hlater
      · rw [List.mem_singleton.mp hlater]
        exact hlast

theorem get?_afterAll_iff :
    (afterAll kind catalogue additions).get? name = some function ↔
      IsLatest kind catalogue name function additions := by
  induction additions using List.reverseRecOn with
  | nil =>
      refine iff_of_false (Option.some_ne_none function).symm ?_
      rintro ⟨before, addition, after, hnil, -⟩
      simp at hnil
  | append_singleton additions addition ih =>
      rw [afterAll_concat, get?_perform_iff, isLatest_concat_iff, ih]

/-- Some function is the latest as soon as one was given to the name. -/
theorem exists_isLatest_iff :
    (∃ function, IsLatest kind catalogue name function additions) ↔
      ∃ addition ∈ additions, addition.name = name ∧
        ∃ function, addition.Gives kind catalogue function := by
  constructor
  · rintro ⟨function, before, addition, after, rfl, hname, hgives, -⟩
    exact ⟨addition, by simp, hname, function, hgives⟩
  · induction additions using List.reverseRecOn with
    | nil => simp
    | append_singleton additions last ih =>
        rintro ⟨addition, hmem, hname, hgives⟩
        simp only [isLatest_concat_iff]
        by_cases hlast : last.name = name ∧ ∃ other, last.Gives kind catalogue other
        · obtain ⟨hown, other, hother⟩ := hlast
          exact ⟨other, .inl ⟨hown, hother⟩⟩
        · have hnone (hown : last.name = name) : ∀ other, ¬ last.Gives kind catalogue other :=
            fun other hother => hlast ⟨hown, other, hother⟩
          rcases List.mem_append.mp hmem with hmem | hmem
          · obtain ⟨function, hlatest⟩ := ih ⟨addition, hmem, hname, hgives⟩
            exact ⟨function, .inr ⟨hlatest, hnone⟩⟩
          · obtain rfl := List.mem_singleton.mp hmem
            exact absurd ⟨hname, hgives⟩ hlast

theorem nodup_keys_afterAll (additions : List (Addition φ)) :
    (Table.keys (afterAll kind catalogue additions)).Nodup := by
  induction additions using List.reverseRecOn with
  | nil => exact List.nodup_nil
  | append_singleton additions addition ih =>
      rw [afterAll_concat]
      exact nodup_keys_perform ih

theorem mem_names_iff {registry : Registry φ} :
    name ∈ registry.names ↔ ∃ function, registry.get? name = some function := by
  rw [names, TemplateFault.mem_sortTexts, ← Option.isSome_iff_exists, get?,
    ← Table.contains_eq_isSome_get?]
  simp [Table.contains, Table.keys]

end

/-- The outcome says that nothing is registered under the name, and which names there are. -/
def IsUnknown (registry : Registry φ) (name : List Char) (outcome : Except TemplateFault φ) :
    Prop :=
  ∃ fault : TemplateFault, outcome = .error fault ∧ fault.code = "UNKNOWN_RENDERER" ∧
    fault.metadata =
      [(.text "name", TemplateFault.textValue name),
        (.text "available", TemplateFault.textsValue registry.names)]

theorem isUnknown_get
    {registry : Registry φ} {name : List Char} (hnone : registry.get? name = none) :
    registry.IsUnknown name (registry.get name) := by
  refine ⟨.unknownRenderer name (Table.keys registry), ?_, rfl, rfl⟩
  rw [get, hnone]

/-- An addition goes through if its name is admitted and its target stands for something; otherwise
it changes nothing, and it is invalid unless its target lacks a module.  After any additions a
lookup finds the function that was given to the name last; a name to which none was given is
unknown; and the names are in order, each with a function that was given to it. -/
theorem lookups_of_additions
    (kind : Kind) (catalogue : Catalogue φ) (additions : List (Addition φ)) :
    (∀ (addition : Addition φ) (registry : Registry φ),
      let after := runOn registry (addition.perform kind catalogue)
      (after.1 = .ok () ↔ ∃ function, addition.Gives kind catalogue function) ∧
        (after.1 = .ok () ∨ IsInvalid after.1 ↔
          ¬ (kind.Admits addition.name ∧ addition.target.LacksModule)) ∧
        (after.1 ≠ .ok () → after.2 = registry)) ∧
      let registry := afterAll kind catalogue additions
      (∀ name function, IsLatest kind catalogue name function additions →
        registry.get? name = some function ∧ registry.get name = .ok function) ∧
        (∀ name,
          (∀ addition ∈ additions, addition.name = name →
            ∀ function, ¬ addition.Gives kind catalogue function) →
          registry.get? name = none ∧ registry.IsUnknown name (registry.get name)) ∧
        (∀ name, name ∈ registry.names ↔
          ∃ addition ∈ additions, addition.name = name ∧
            ∃ function, addition.Gives kind catalogue function) ∧
        registry.names.Pairwise (· < ·) := by
  refine ⟨fun addition registry => ?_, fun name function hlatest => ?_, fun name hnone => ?_,
    fun name => ?_, ?_⟩
  · by_cases hgives : ∃ function, addition.Gives kind catalogue function
    · obtain ⟨function, hgives⟩ := hgives
      have hlacks : ¬ addition.target.LacksModule := by
        rw [Catalogue.lacksModule_iff addition.name,
          (Catalogue.resolve_eq_ok_iff _).mpr hgives.2]
        simp
      rw [runOn_perform_of_gives hgives]
      exact ⟨iff_of_true rfl ⟨function, hgives⟩,
        iff_of_true (.inl rfl) fun hboth => hlacks hboth.2, fun hfailed => absurd rfl hfailed⟩
    · obtain ⟨failure, hfailure, hinvalid⟩ :=
        runOn_perform_of_not_gives (not_exists.mp hgives) registry
      rw [hfailure]
      exact ⟨iff_of_false (by simp) hgives, by simpa using hinvalid, fun _ => rfl⟩
  · have hfound := get?_afterAll_iff.mpr hlatest
    exact ⟨hfound, by rw [get, hfound]⟩
  · have hfound : (afterAll kind catalogue additions).get? name = none := by
      rw [Option.eq_none_iff_forall_ne_some]
      intro function hfound
      obtain ⟨addition, hmem, hname, own, hgives⟩ :=
        exists_isLatest_iff.mp ⟨function, get?_afterAll_iff.mp hfound⟩
      exact hnone addition hmem hname own hgives
    exact ⟨hfound, isUnknown_get hfound⟩
  · simp only [mem_names_iff, get?_afterAll_iff, exists_isLatest_iff]
  · exact TemplateFault.pairwise_lt_sortTexts (nodup_keys_afterAll additions)

/-- A module of two members, of which one is a function. -/
def colours : Catalogue Nat :=
  [("paint".toList, .ofMembers [("red".toList, .ofFunction 1), ("kinds".toList, .ofMembers [])])]

/-- The second addition is refused and the third lacks a module, so the function stays that was
given first, and the name of the third is unknown. -/
theorem lookups_of_additions_colours :
    let path (text : String) : Target Nat := .data (.text text)
    let additions : List (Addition Nat) :=
      [⟨['a'], path "paint:red"⟩, ⟨['a'], path "paint:kinds"⟩, ⟨['b'], path ":red"⟩]
    let registry := afterAll .blocks colours additions
    (IsLatest .blocks colours ['a'] 1 additions ∧ registry.get? ['a'] = some 1) ∧
      (∀ addition ∈ additions, addition.name = ['b'] →
        ∀ function, ¬ addition.Gives .blocks colours function) ∧
      registry.IsUnknown ['b'] (registry.get ['b']) := by
  intro path additions registry
  obtain ⟨-, hlatest, hnone, -⟩ := lookups_of_additions .blocks colours additions
  have hgives : (⟨['a'], path "paint:red"⟩ : Addition Nat).Gives .blocks colours 1 :=
    ⟨fun hblank => absurd (hblank 'a' List.mem_cons_self) (by decide),
      (Catalogue.resolve_eq_ok_iff []).mp rfl⟩
  have hrefused (function : Nat) : ¬ colours.StandsFor (path "paint:kinds") function := by
    rw [← Catalogue.resolve_eq_ok_iff []]
    exact fun hok => nomatch hok
  have hlost (function : Nat) : ¬ colours.StandsFor (path ":red") function := by
    rw [← Catalogue.resolve_eq_ok_iff []]
    exact fun hok => nomatch hok
  have hfirst : IsLatest .blocks colours ['a'] 1 additions := by
    refine ⟨[], _, _, rfl, rfl, hgives, fun later hlater hname other hother => ?_⟩
    rcases List.mem_cons.mp hlater with rfl | hlater
    · exact hrefused other hother.2
    · rw [List.mem_singleton.mp hlater] at hname
      simp at hname
  have hthird : ∀ addition ∈ additions, addition.name = ['b'] →
      ∀ function, ¬ addition.Gives .blocks colours function := by
    intro addition hmem hname function hfunction
    simp only [additions, List.mem_cons, List.not_mem_nil, or_false] at hmem
    rcases hmem with rfl | rfl | rfl
    · simp at hname
    · simp at hname
    · exact hlost function hfunction.2
  exact ⟨⟨hfirst, (hlatest _ _ hfirst).1⟩, hthird, (hnone _ hthird).2⟩

/-- An addition without an absolute module neither goes through nor is it invalid. -/
theorem additions_without_module :
    ¬ ∀ (kind : Kind) (catalogue : Catalogue Nat) (addition : Addition Nat)
        (registry : Registry Nat),
      let outcome := (runOn registry (addition.perform kind catalogue)).1
      outcome = .ok () ∨ IsInvalid outcome := by
  intro hall
  have hempty : (runOn ([] : Registry Nat)
      (Addition.perform ⟨['a'], .data (.text ":x")⟩ .renderers [])).1 = .error .emptyModule := rfl
  have hfirst := hall .renderers [] ⟨['a'], .data (.text ":x")⟩ []
  simp [hempty, IsInvalid] at hfirst

end Registry

end Stencil
