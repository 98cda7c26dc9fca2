import Mathlib.Tactic.Common

/-!
# Results of computations on a state

A computation that may fail keeps what it has changed, whether or not it fails.
-/

namespace Stencil

variable {ε σ α β : Type}

/-- The result of a computation on a state, and the state afterwards. -/
def runOn (state : σ) (computation : ExceptT ε (StateM σ) α) : Except ε α × σ :=
  computation.run.run state

@[simp] theorem runOn_pure (state : σ) (value : α) :
    runOn state (pure value : ExceptT ε (StateM σ) α) = (.ok value, state) := rfl

@[simp] theorem runOn_throw (state : σ) (failure : ε) :
    runOn state (throw failure : ExceptT ε (StateM σ) α) = (.error failure, state) := rfl

@[simp] theorem runOn_get (state : σ) :
    runOn state (get : ExceptT ε (StateM σ) σ) = (.ok state, state) := rfl

@[simp] theorem runOn_set (state later : σ) :
    runOn state (set later : ExceptT ε (StateM σ) PUnit) = (.ok ⟨⟩, later) := rfl

@[simp] theorem runOn_modify (state : σ) (change : σ → σ) :
    runOn state (modify change : ExceptT ε (StateM σ) PUnit) = (.ok ⟨⟩, change state) := rfl

theorem runOn_bind
    (state : σ) (computation : ExceptT ε (StateM σ) α) (next : α → ExceptT ε (StateM σ) β) :
    runOn state (computation >>= next) =
      match runOn state computation with
      | (.ok value, later) => runOn later (next value)
      | (.error failure, later) => (.error failure, later) := by
  unfold runOn ExceptT.run StateT.run
  simp only [bind, ExceptT.bind, ExceptT.mk, StateT.bind, ExceptT.bindCont]
  rcases computation state with ⟨failure | value, later⟩ <;> rfl

theorem runOn_bind_of_ok
    {state later : σ} {computation : ExceptT ε (StateM σ) α} {value : α}
    (hvalue : runOn state computation = (.ok value, later))
    (next : α → ExceptT ε (StateM σ) β) :
    runOn state (computation >>= next) = runOn later (next value) := by
  rw [runOn_bind, hvalue]

theorem runOn_bind_of_error
    {state later : σ} {computation : ExceptT ε (StateM σ) α} {failure : ε}
    (hfailure : runOn state computation = (.error failure, later))
    (next : α → ExceptT ε (StateM σ) β) :
    runOn state (computation >>= next) = (.error failure, later) := by
  rw [runOn_bind, hfailure]

/-- What is done with the value alone changes nothing else. -/
theorem runOn_bind_pure
    (state : σ) (computation : ExceptT ε (StateM σ) α) (change : α → β) :
    runOn state (computation >>= fun value => pure (change value)) =
      ((runOn state computation).1.map change, (runOn state computation).2) := by
  rw [runOn_bind]
  rcases runOn state computation with ⟨failure | value, later⟩ <;> rfl

theorem runOn_bind_eq_ok_iff
    {state final : σ} {computation : ExceptT ε (StateM σ) α}
    {next : α → ExceptT ε (StateM σ) β} {result : β} :
    runOn state (computation >>= next) = (.ok result, final) ↔
      ∃ value later, runOn state computation = (.ok value, later) ∧
        runOn later (next value) = (.ok result, final) := by
  rw [runOn_bind]
  rcases runOn state computation with ⟨failure | value, later⟩ <;> simp

theorem runOn_bind_eq_error_iff
    {state final : σ} {computation : ExceptT ε (StateM σ) α}
    {next : α → ExceptT ε (StateM σ) β} {failure : ε} :
    runOn state (computation >>= next) = (.error failure, final) ↔
      runOn state computation = (.error failure, final) ∨
        ∃ value later, runOn state computation = (.ok value, later) ∧
          runOn later (next value) = (.error failure, final) := by
  rw [runOn_bind]
  rcases runOn state computation with ⟨other | value, later⟩ <;> simp

end Stencil
