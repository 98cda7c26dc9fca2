import Stencil.Warning
import Stencil.Proofs.Work

/-!
# Results of computations that keep warnings

A computation adds its warnings to those that are there already, whether or not it fails.
-/

namespace Stencil.Logged

variable {ε α β : Type}

/-- The result of a computation, and its warnings behind those that there are already. -/
def after (log : List Warning) (computation : Logged ε α) : Except ε α × List Warning :=
  computation.run.run log

theorem outcome_eq_after (computation : Logged ε α) : outcome computation = after [] computation :=
  rfl

@[simp] theorem after_pure (log : List Warning) (value : α) :
    after log (pure value : Logged ε α) = (.ok value, log) := rfl

@[simp] theorem after_throw (log : List Warning) (failure : ε) :
    after log (throw failure : Logged ε α) = (.error failure, log) := rfl

@[simp] theorem after_ofExcept (log : List Warning) (result : Except ε α) :
    after log (ofExcept result) = (result, log) := by
  cases result <;> rfl

theorem after_throw_ne_ok {log later : List Warning} {failure : ε} {value : α} :
    after log (throw failure : Logged ε α) ≠ (.ok value, later) := by
  rw [after_throw]
  simp

section

variable {log later : List Warning} {computation : Logged ε α} {next : α → Logged ε β}

theorem after_bind_of_ok
    {value : α} (hvalue : after log computation = (.ok value, later)) (next : α → Logged ε β) :
    after log (computation >>= next) = after later (next value) :=
  runOn_bind_of_ok hvalue next

theorem after_bind_of_error
    {failure : ε} (hfailure : after log computation = (.error failure, later))
    (next : α → Logged ε β) : after log (computation >>= next) = (.error failure, later) :=
  runOn_bind_of_error hfailure next

theorem after_bind_pure (change : α → β) :
    after log (computation >>= fun value => pure (change value)) =
      ((after log computation).1.map change, (after log computation).2) :=
  runOn_bind_pure log computation change

theorem after_bind_eq_ok_iff {result : β} :
    after log (computation >>= next) = (.ok result, later) ↔
      ∃ value between, after log computation = (.ok value, between) ∧
        after between (next value) = (.ok result, later) :=
  runOn_bind_eq_ok_iff

theorem after_bind_eq_error_iff {failure : ε} :
    after log (computation >>= next) = (.error failure, later) ↔
      after log computation = (.error failure, later) ∨
        ∃ value between, after log computation = (.ok value, between) ∧
          after between (next value) = (.error failure, later) :=
  runOn_bind_eq_error_iff

/-- Whatever warnings there are already, the computation ends with the result and adds the
warnings. -/
def HasOutcome (computation : Logged ε α) (ending : Except ε α × List Warning) : Prop :=
  ∀ log, after log computation = (ending.1, log ++ ending.2)

theorem HasOutcome.outcome_eq {ending : Except ε α × List Warning}
    (hcomputation : HasOutcome computation ending) : outcome computation = ending := by
  rw [outcome_eq_after, hcomputation, List.nil_append]

theorem hasOutcome_pure (value : α) : HasOutcome (pure value : Logged ε α) (.ok value, []) := by
  intro log
  rw [after_pure, List.append_nil]

theorem hasOutcome_ofExcept (result : Except ε α) : HasOutcome (ofExcept result) (result, []) := by
  intro log
  rw [after_ofExcept, List.append_nil]

theorem hasOutcome_warn (warning : Warning) :
    HasOutcome (warn warning : Logged ε Unit) (.ok (), [warning]) :=
  fun _ => rfl

section

variable {warnings added : List Warning}

theorem HasOutcome.bind {value : α} {result : Except ε β}
    (hvalue : HasOutcome computation (.ok value, warnings))
    (hnext : HasOutcome (next value) (result, added)) :
    HasOutcome (computation >>= next) (result, warnings ++ added) := by
  intro log
  rw [after_bind_of_ok (hvalue log), hnext, List.append_assoc]

theorem HasOutcome.bind_error {failure : ε}
    (hfailure : HasOutcome computation (.error failure, warnings)) (next : α → Logged ε β) :
    HasOutcome (computation >>= next) (.error failure, warnings) :=
  fun log => after_bind_of_error (hfailure log) next

theorem HasOutcome.bind_pure {result : Except ε α}
    (hresult : HasOutcome computation (result, warnings)) (change : α → β) :
    HasOutcome (computation >>= fun value => pure (change value))
      (result.map change, warnings) := by
  intro log
  rw [after_bind_pure, hresult]

end

theorem exists_of_mem_mapM
    {next : α → Logged ε β} {values : List α} {results : List β} {result : β}
    (hresults : after log (values.mapM next) = (.ok results, later)) (hmem : result ∈ results) :
    ∃ value ∈ values, ∃ before behind, after before (next value) = (.ok result, behind) := by
  induction values generalizing results log with
  | nil =>
      cases hresults
      contradiction
  | cons first rest ih =>
      rw [List.mapM_cons] at hresults
      obtain ⟨head, between, hhead, hresults⟩ := after_bind_eq_ok_iff.mp hresults
      obtain ⟨tail, behind, htail, hresults⟩ := after_bind_eq_ok_iff.mp hresults
      cases hresults
      rcases List.mem_cons.mp hmem with rfl | hmem
      · exact ⟨first, List.mem_cons_self, log, between, hhead⟩
      · obtain ⟨value, hvalue, hnext⟩ := ih htail hmem
        exact ⟨value, List.mem_cons_of_mem _ hvalue, hnext⟩

end

/-- Whatever warnings there are already, the computation does not end with the failure. -/
def Avoids (computation : Logged ε α) (failure : ε) : Prop :=
  ∀ log later, after log computation ≠ (.error failure, later)

section

variable {computation : Logged ε α} {next : α → Logged ε β} {failure : ε}

theorem avoids_pure (value : α) (failure : ε) : (pure value : Logged ε α).Avoids failure := by
  intro log later
  simp

theorem avoids_throw {other : ε} (hother : other ≠ failure) :
    (throw other : Logged ε α).Avoids failure := by
  intro log later
  simp [hother]

theorem avoids_warn (warning : Warning) (failure : ε) :
    (warn warning : Logged ε Unit).Avoids failure := by
  intro log later
  rw [hasOutcome_warn]
  simp

theorem avoids_ofExcept {result : Except ε α} (hresult : result ≠ .error failure) :
    (ofExcept result).Avoids failure := by
  intro log later
  simp [hresult]

theorem Avoids.bind (hcomputation : computation.Avoids failure)
    (hnext : ∀ value, (next value).Avoids failure) : (computation >>= next).Avoids failure := by
  intro log later hfailure
  rcases after_bind_eq_error_iff.mp hfailure with hfirst | ⟨value, between, -, hlater⟩
  · exact hcomputation log later hfirst
  · exact hnext value between later hlater

theorem Avoids.mapM (hnext : ∀ value, (next value).Avoids failure) (values : List α) :
    (values.mapM next).Avoids failure := by
  induction values with
  | nil => exact avoids_pure [] failure
  | cons first rest ih =>
      rw [List.mapM_cons]
      exact (hnext first).bind fun head => ih.bind fun tail => avoids_pure _ failure

end

end Stencil.Logged
