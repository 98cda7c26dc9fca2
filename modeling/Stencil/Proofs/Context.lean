import Stencil.Context
import Stencil.Proofs.Data.Table
import Stencil.Proofs.Text.Split

/-!
# Variables and the history of a page

What a page answers about a variable is decided by what was done to it.  Of the values that were set
under a name while the name that is selected now was selected, the last one stands, unless the
variables of that selection were cleared since.  Layouts and views do not hear of each other.
-/

namespace Stencil

open Stencil.Data

/-! ## The variables of one kind -/

namespace Selection

def held (selection : Selection) (active name : List Char) : Option Value :=
  (Table.get? selection.bags active).bind fun bag => Table.get? bag name

variable (selection : Selection) (active name : List Char)

theorem get?_bindings :
    Table.get? selection.bindings name = selection.held selection.selected name := by
  rw [bindings, held]
  cases Table.get? selection.bags selection.selected <;> rfl

theorem held_set (own : List Char) (value : Value) :
    (selection.set own value).held active name =
      if selection.selected = active ∧ own = name then some value
      else selection.held active name := by
  by_cases hactive : selection.selected = active
  · subst hactive
    rw [held, set, Table.get?_put_self, Option.bind_some, ← get?_bindings]
    by_cases hown : own = name
    · rw [hown, Table.get?_put_self, if_pos ⟨rfl, rfl⟩]
    · rw [Table.get?_put_of_ne _ _ (Ne.symm hown), if_neg fun hboth => hown hboth.2]
  · rw [if_neg fun hboth => hactive hboth.1, held, set, Table.get?_put_of_ne _ _ (Ne.symm hactive),
      held]

theorem held_clearSelected :
    selection.clearSelected.held active name =
      if selection.selected = active then none else selection.held active name := by
  rw [held, clearSelected]
  by_cases hactive : selection.selected = active
  · rw [if_pos hactive, hactive, Table.get?_erase_self, Option.bind_none]
  · rw [if_neg hactive, Table.get?_erase_of_ne _ (Ne.symm hactive), held]

end Selection

namespace Context

/-! ## Runs -/

/-- What a page selects, each with variables of its own. -/
inductive Kind where
  | layout
  | view
  deriving DecidableEq

def Kind.scope : Kind → Value
  | .layout => .text "layout"
  | .view => .text "view"

def selection (context : Context) : Kind → Selection
  | .layout => context.layout
  | .view => context.view

def change (context : Context) (kind : Kind) (changed : Selection) : Context :=
  match kind with
  | .layout => { context with layout := changed }
  | .view => { context with view := changed }

inductive Operation where
  | select (kind : Kind) (name : List Char)
  | set (kind : Kind) (name : List Char) (value : Value)
  | get (kind : Kind) (name : List Char) (fallback : Value)
  | bindings (kind : Kind)
  /-- Ask for all variables that are seen, and change what was handed out. -/
  | editCopy (kind : Kind) (edit : Variables → Variables)
  | clear (scope : Value)

inductive Answer where
  | nothing
  | value (value : Value)
  | bag (bag : Variables)

namespace Operation

/-- The answer, or what is said of a scope that is none, and the context afterwards. -/
def perform (operation : Operation) (context : Context) : Except (List Char) Answer × Context :=
  match operation with
  | .select kind name => (.ok .nothing, context.change kind ((context.selection kind).select name))
  | .set kind name value =>
    (.ok .nothing, context.change kind ((context.selection kind).set name value))
  | .get kind name fallback =>
    (.ok (.value ((context.selection kind).get name fallback)), context)
  | .bindings kind => (.ok (.bag (context.selection kind).bindings), context)
  | .editCopy kind edit => (.ok (.bag (edit (context.selection kind).bindings)), context)
  | .clear scope =>
    match extent? scope with
    | some extent => (.ok .nothing, context.clear extent)
    | none => (.error (extentMessage scope), context)

def selects? (kind : Kind) : Operation → Option (List Char)
  | .select own name => if own = kind then some name else none
  | _ => none

/-- The operation is meant for the kind alone. -/
def IsOn (kind : Kind) : Operation → Prop
  | .select own _ | .set own _ _ | .get own _ _ | .bindings own | .editCopy own _ => own = kind
  | .clear scope => scope = kind.scope

/-- Done while `selected` is selected, the operation clears the variables of `active`. -/
def Clears (operation : Operation) (kind : Kind) (active selected : List Char) : Prop :=
  operation = .clear .null ∨ operation = .clear kind.scope ∧ selected = active

/-- Done while `selected` is selected, the operation sets a variable of `active` or clears them
all. -/
def Overrides (operation : Operation) (kind : Kind) (active name selected : List Char) : Prop :=
  (∃ value, operation = .set kind name value ∧ selected = active) ∨
    operation.Clears kind active selected

end Operation

/-- The context after operations on a new one. -/
def afterAll (history : List Operation) : Context :=
  history.foldl (fun context operation => (operation.perform context).2) .empty

/-- The name that is selected after operations on a new context. -/
def selectedAfter (kind : Kind) (history : List Operation) : List Char :=
  (history.filterMap (Operation.selects? kind)).getLastD []

/-- The value was set under the name while `active` was selected, and nothing that was done later
overrides it. -/
def Stands (kind : Kind) (active name : List Char) (value : Value) (history : List Operation) :
    Prop :=
  ∃ before after, history = before ++ .set kind name value :: after ∧
    selectedAfter kind before = active ∧
      ∀ between operation later, after = between ++ operation :: later →
        ¬ operation.Overrides kind active name
          (selectedAfter kind (before ++ .set kind name value :: between))

/-- The value is no scope: something is given, and it names no kind. -/
def IsUnknown (scope : Value) : Prop :=
  scope ≠ .null ∧ ∀ kind : Kind, scope ≠ kind.scope

/-! ## Single operations -/

section

variable {kind : Kind} {active name : List Char} {value : Value} {operation : Operation}

theorem selection_change (context : Context) (kind other : Kind) (changed : Selection) :
    (context.change kind changed).selection other =
      if other = kind then changed else context.selection other := by
  cases kind <;> cases other <;> rfl

theorem perform_clear_scope (kind : Kind) (context : Context) :
    (Operation.clear kind.scope).perform context =
      (.ok .nothing, context.change kind (context.selection kind).clearSelected) := by
  cases kind <;> rfl

theorem selection_perform_clear_null (kind : Kind) (context : Context) :
    ((Operation.clear .null).perform context).2.selection kind =
      (context.selection kind).clearAll := by
  cases kind <;> rfl

theorem extent?_eq_none_iff {scope : Value} : extent? scope = none ↔ IsUnknown scope := by
  constructor
  · intro hnone
    refine ⟨?_, fun kind => ?_⟩
    · rintro rfl
      contradiction
    · rintro rfl
      cases kind <;> contradiction
  · rintro ⟨hnull, hkind⟩
    rw [extent?]
    · exact hnull
    · exact hkind .layout
    · exact hkind .view

theorem perform_clear_of_isUnknown {scope : Value} (hscope : IsUnknown scope) (context : Context) :
    (Operation.clear scope).perform context = (.error (extentMessage scope), context) := by
  rw [Operation.perform, extent?_eq_none_iff.mpr hscope]

theorem scope_cases (scope : Value) :
    scope = .null ∨ (∃ kind : Kind, scope = kind.scope) ∨ IsUnknown scope := by
  by_cases hnull : scope = .null
  · exact .inl hnull
  · by_cases hkind : ∃ kind : Kind, scope = kind.scope
    · exact .inr (.inl hkind)
    · exact .inr (.inr ⟨hnull, fun kind hscope => hkind ⟨kind, hscope⟩⟩)

theorem selection_perform_of_isOn
    {other : Kind} (hon : operation.IsOn kind) (hother : other ≠ kind) (context : Context) :
    (operation.perform context).2.selection other = context.selection other := by
  cases operation with
  | select own name =>
      obtain rfl : own = kind := hon
      rw [Operation.perform, selection_change, if_neg hother]
  | set own name value =>
      obtain rfl : own = kind := hon
      rw [Operation.perform, selection_change, if_neg hother]
  | clear scope =>
      obtain rfl : scope = kind.scope := hon
      rw [perform_clear_scope, selection_change, if_neg hother]
  | _ => rfl

theorem selected_perform (operation : Operation) (kind : Kind) (context : Context) :
    ((operation.perform context).2.selection kind).selected =
      (operation.selects? kind).getD (context.selection kind).selected := by
  cases operation with
  | select own name =>
      rw [Operation.perform, selection_change, Operation.selects?]
      by_cases hkind : kind = own
      · rw [if_pos hkind, if_pos hkind.symm]
        rfl
      · rw [if_neg hkind, if_neg (Ne.symm hkind)]
        rfl
  | set own name value =>
      rw [Operation.perform, selection_change]
      by_cases hkind : kind = own
      · rw [if_pos hkind, hkind]
        rfl
      · rw [if_neg hkind]
        rfl
  | clear scope =>
      rcases scope_cases scope with rfl | ⟨own, rfl⟩ | hscope
      · rw [selection_perform_clear_null]
        rfl
      · rw [perform_clear_scope, selection_change]
        by_cases hkind : kind = own
        · rw [if_pos hkind, hkind]
          rfl
        · rw [if_neg hkind]
          rfl
      · rw [perform_clear_of_isUnknown hscope]
        rfl
  | _ => rfl

theorem held_perform_set
    {context : Context} (hselected : (context.selection kind).selected = active) :
    (((Operation.set kind name value).perform context).2.selection kind).held active name =
      some value := by
  rw [Operation.perform, selection_change, if_pos rfl, Selection.held_set,
    if_pos ⟨hselected, rfl⟩]

theorem held_perform_of_clears
    {context : Context}
    (hclears : operation.Clears kind active (context.selection kind).selected) :
    ((operation.perform context).2.selection kind).held active name = none := by
  rcases hclears with rfl | ⟨rfl, hselected⟩
  · rw [selection_perform_clear_null]
    rfl
  · rw [perform_clear_scope, selection_change, if_pos rfl, Selection.held_clearSelected,
      if_pos hselected]

theorem held_perform_of_not_overrides
    {context : Context}
    (hkept : ¬ operation.Overrides kind active name (context.selection kind).selected) :
    ((operation.perform context).2.selection kind).held active name =
      (context.selection kind).held active name := by
  by_cases hother : ∃ other, operation.IsOn other ∧ kind ≠ other
  · obtain ⟨other, hon, hother⟩ := hother
    rw [selection_perform_of_isOn hon hother]
  · have hkind (own : Kind) (hon : operation.IsOn own) : own = kind := by
      by_contra hne
      exact hother ⟨own, hon, Ne.symm hne⟩
    cases operation with
    | select own other =>
        obtain rfl := hkind own rfl
        rw [Operation.perform, selection_change, if_pos rfl]
        rfl
    | set own other written =>
        obtain rfl := hkind own rfl
        rw [Operation.perform, selection_change, if_pos rfl, Selection.held_set, if_neg]
        rintro ⟨hselected, rfl⟩
        exact hkept (.inl ⟨written, rfl, hselected⟩)
    | clear scope =>
        rcases scope_cases scope with rfl | ⟨own, rfl⟩ | hscope
        · exact absurd (.inr (.inl rfl)) hkept
        · obtain rfl := hkind own rfl
          rw [perform_clear_scope, selection_change, if_pos rfl, Selection.held_clearSelected,
            if_neg]
          exact fun hselected => hkept (.inr (.inr ⟨rfl, hselected⟩))
        · rw [perform_clear_of_isUnknown hscope]
    | _ => rfl

/-- After an operation a variable has a value if the operation gave it that value, or if it had it
before and the operation does not override it. -/
theorem held_perform_iff (context : Context) :
    ((operation.perform context).2.selection kind).held active name = some value ↔
      (operation = .set kind name value ∧ (context.selection kind).selected = active) ∨
        (context.selection kind).held active name = some value ∧
          ¬ operation.Overrides kind active name (context.selection kind).selected := by
  constructor
  · intro hheld
    by_cases hoverrides : operation.Overrides kind active name (context.selection kind).selected
    · rcases hoverrides with ⟨written, rfl, hselected⟩ | hclears
      · rw [held_perform_set hselected] at hheld
        obtain rfl := Option.some.inj hheld
        exact .inl ⟨rfl, hselected⟩
      · rw [held_perform_of_clears hclears] at hheld
        contradiction
    · rw [held_perform_of_not_overrides hoverrides] at hheld
      exact .inr ⟨hheld, hoverrides⟩
  · rintro (⟨rfl, hselected⟩ | ⟨hheld, hkept⟩)
    · exact held_perform_set hselected
    · rw [held_perform_of_not_overrides hkept, hheld]

end

/-! ## Histories -/

section

variable {kind : Kind} {active name : List Char} {value : Value} {operation : Operation}
  {history : List Operation}

theorem afterAll_concat (history : List Operation) (operation : Operation) :
    afterAll (history ++ [operation]) = (operation.perform (afterAll history)).2 := by
  rw [afterAll, List.foldl_append]
  rfl

theorem selectedAfter_concat (kind : Kind) (history : List Operation) (operation : Operation) :
    selectedAfter kind (history ++ [operation]) =
      (operation.selects? kind).getD (selectedAfter kind history) := by
  rw [selectedAfter, List.filterMap_append]
  cases hselects : operation.selects? kind <;> simp [hselects, selectedAfter]

/-- What is done while another name is selected spares the variables of `active`, unless it clears
them all. -/
theorem not_overrides_of_ne
    {selected : List Char} (hselected : selected ≠ active) (hall : operation ≠ .clear .null) :
    ¬ operation.Overrides kind active name selected := by
  rintro (⟨_, _, hactive⟩ | hnull | ⟨_, hactive⟩)
  · exact hselected hactive
  · exact hall hnull
  · exact hselected hactive

theorem not_stands_nil : ¬ Stands kind active name value [] := by
  rintro ⟨before, after, hnil, -⟩
  simp at hnil

/-- Either the last operation sets the value, or the value stood before and is not overridden. -/
theorem stands_concat_iff :
    Stands kind active name value (history ++ [operation]) ↔
      (operation = .set kind name value ∧ selectedAfter kind history = active) ∨
        Stands kind active name value history ∧
          ¬ operation.Overrides kind active name (selectedAfter kind history) := by
  constructor
  · rintro ⟨before, after, hhistory, hselected, hafter⟩
    rcases Text.concat_eq_append_cons_iff.mp hhistory with ⟨rfl, hset, -⟩ | ⟨between, rfl, rfl⟩
    · exact .inl ⟨hset, hselected⟩
    · refine .inr ⟨⟨before, between, rfl, hselected, ?_⟩, hafter between operation [] rfl⟩
      intro inner other later hbetween
      apply hafter inner other (later ++ [operation])
      rw [hbetween, List.append_assoc, List.cons_append]
  · rintro (⟨rfl, hselected⟩ | ⟨⟨before, after, rfl, hselected, hafter⟩, hoperation⟩)
    · refine ⟨history, [], rfl, hselected, ?_⟩
      simp
    · refine ⟨before, after ++ [operation], by simp, hselected, ?_⟩
      intro between other later hbetween
      rcases Text.concat_eq_append_cons_iff.mp hbetween with ⟨rfl, rfl, -⟩ | ⟨rest, -, hrest⟩
      · exact hoperation
      · exact hafter between other rest hrest

theorem Stands.keep
    (hstands : Stands kind active name value history)
    (hkept : ¬ operation.Overrides kind active name (selectedAfter kind history)) :
    Stands kind active name value (history ++ [operation]) :=
  stands_concat_iff.mpr (.inr ⟨hstands, hkept⟩)

theorem selected_afterAll (kind : Kind) (history : List Operation) :
    ((afterAll history).selection kind).selected = selectedAfter kind history := by
  induction history using List.reverseRecOn with
  | nil => cases kind <;> rfl
  | append_singleton history operation ih =>
      rw [afterAll_concat, selected_perform, selectedAfter_concat, ih]

/-- The variables hold the values that stand, whatever is selected. -/
theorem held_afterAll_iff :
    ((afterAll history).selection kind).held active name = some value ↔
      Stands kind active name value history := by
  induction history using List.reverseRecOn with
  | nil =>
      have hnone : ((afterAll []).selection kind).held active name = none := by
        cases kind <;> rfl
      rw [hnone]
      exact iff_of_false (Option.some_ne_none value).symm not_stands_nil
  | append_singleton history operation ih =>
      rw [afterAll_concat, held_perform_iff, stands_concat_iff, selected_afterAll, ih]

theorem perform_get (kind : Kind) (name : List Char) (fallback : Value) (history : List Operation) :
    ((Operation.get kind name fallback).perform (afterAll history)).1 =
      .ok (.value ((((afterAll history).selection kind).held
        (selectedAfter kind history) name).getD fallback)) := by
  rw [Operation.perform, Selection.get, Selection.get?_bindings, selected_afterAll]

/-- What an operation answers that is meant for one kind depends on that kind alone. -/
theorem answer_eq_of_isOn
    {first second : Context} (hon : operation.IsOn kind)
    (hsame : first.selection kind = second.selection kind) :
    (operation.perform first).1 = (operation.perform second).1 := by
  cases operation with
  | get own name fallback =>
      obtain rfl : own = kind := hon
      rw [Operation.perform, Operation.perform, hsame]
  | bindings own =>
      obtain rfl : own = kind := hon
      rw [Operation.perform, Operation.perform, hsame]
  | editCopy own edit =>
      obtain rfl : own = kind := hon
      rw [Operation.perform, Operation.perform, hsame]
  | clear scope =>
      obtain rfl : scope = kind.scope := hon
      rw [perform_clear_scope, perform_clear_scope]
  | _ => rfl

end

/-- After any operations, a page that is asked for a variable gives the value that stands among the
variables of what is selected, and the fallback if none does.  What is meant for one kind changes no
answer about the other, and to clear an unknown scope is refused and changes nothing. -/
theorem answers_of_history (history : List Operation) :
    (∀ kind name fallback,
      let active := selectedAfter kind history
      let answer := ((Operation.get kind name fallback).perform (afterAll history)).1
      (∀ value, Stands kind active name value history → answer = .ok (.value value)) ∧
        ((∀ value, ¬ Stands kind active name value history) → answer = .ok (.value fallback))) ∧
      (∀ (operation question : Operation) kind other,
        operation.IsOn kind → question.IsOn other → other ≠ kind →
          (question.perform (afterAll (history ++ [operation]))).1 =
            (question.perform (afterAll history)).1) ∧
      ∀ scope, IsUnknown scope →
        (Operation.clear scope).perform (afterAll history) =
          (.error (extentMessage scope), afterAll history) := by
  refine ⟨fun kind name fallback => ⟨fun value hstands => ?_, fun hnone => ?_⟩, ?_, ?_⟩
  · rw [perform_get, held_afterAll_iff.mpr hstands, Option.getD_some]
  · have hheld : ((afterAll history).selection kind).held (selectedAfter kind history) name =
        none := by
      rw [Option.eq_none_iff_forall_ne_some]
      exact fun value hheld => hnone value (held_afterAll_iff.mp hheld)
    rw [perform_get, hheld, Option.getD_none]
  · intro operation question kind other hon hquestion hother
    rw [afterAll_concat]
    exact answer_eq_of_isOn hquestion (selection_perform_of_isOn hon hother _)
  · exact fun scope hscope => perform_clear_of_isUnknown hscope _

/-- What was set for the first view comes back with it, although the variables of the second one
were cleared; a layout does not see it, and "session" is no scope. -/
theorem answers_of_history_reselected :
    let history : List Operation :=
      [.select .view ['a'], .set .view ['x'] (.int 1), .select .view ['b'],
        .set .view ['x'] (.int 2), .editCopy .view (Table.erase · ['x']), .clear (.text "view"),
        .select .view ['a']]
    (Stands .view ['a'] ['x'] (.int 1) history ∧
        ((Operation.get .view ['x'] .null).perform (afterAll history)).1 =
          .ok (.value (.int 1))) ∧
      ((∀ value, ¬ Stands .layout [] ['x'] value history) ∧
        ((Operation.get .layout ['x'] .null).perform (afterAll history)).1 =
          .ok (.value .null)) ∧
      (((Operation.clear (.text "layout")).IsOn .layout ∧
          (Operation.get .view ['x'] .null).IsOn .view ∧ Kind.view ≠ Kind.layout) ∧
        ((Operation.get .view ['x'] .null).perform
            (afterAll (history ++ [.clear (.text "layout")]))).1 =
          .ok (.value (.int 1))) ∧
      IsUnknown (.text "session") ∧
        (Operation.clear (.text "session")).perform (afterAll history) =
          (.error "Unknown context scope: 'session'".toList, afterAll history) := by
  intro history
  obtain ⟨hanswers, hapart, hunknown⟩ := answers_of_history history
  have hstands : Stands .view ['a'] ['x'] (.int 1) history := by
    have hset : Stands .view ['a'] ['x'] (.int 1)
        ([.select .view ['a']] ++ [.set .view ['x'] (.int 1)]) :=
      stands_concat_iff.mpr (.inl ⟨rfl, rfl⟩)
    have hselect (name selected : List Char) :
        ¬ (Operation.select .view name).Overrides .view ['a'] ['x'] selected := by
      simp [Operation.Overrides, Operation.Clears]
    refine ((((hset.keep ?_).keep ?_).keep ?_).keep ?_).keep ?_
    · exact hselect ['b'] _
    · exact not_overrides_of_ne (by decide) (by simp)
    · exact not_overrides_of_ne (by decide) (by simp)
    · exact not_overrides_of_ne (by decide) (by simp)
    · exact hselect ['a'] _
  have hlayout : ∀ value, ¬ Stands .layout [] ['x'] value history := by
    rintro value ⟨before, after, hhistory, -⟩
    have hmem : Operation.set .layout ['x'] value ∈ history := by
      rw [hhistory]
      exact List.mem_append_right _ List.mem_cons_self
    simp [history] at hmem
  have hview := (hanswers .view ['x'] .null).1 (.int 1) hstands
  have hsession : IsUnknown (.text "session") := by
    refine ⟨by simp, fun kind => ?_⟩
    cases kind <;> simp [Kind.scope]
  exact ⟨⟨hstands, hview⟩, ⟨hlayout, (hanswers .layout ['x'] .null).2 hlayout⟩,
    ⟨⟨rfl, rfl, by decide⟩,
      (hapart (.clear (.text "layout")) (.get .view ['x'] .null) .layout .view rfl rfl
        (by decide)).trans hview⟩,
    hsession, hunknown _ hsession⟩

end Context

end Stencil
