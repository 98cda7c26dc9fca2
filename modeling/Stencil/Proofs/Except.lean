import Mathlib.Tactic.Common

/-!
# Results of computations that can fail

A sequence of computations has a result if each of them has one, and a fault if one of them has a
fault.
-/

namespace Stencil

section

variable {ε α β : Type} {computed : Except ε α}

theorem bind_eq_ok_iff {next : α → Except ε β} {result : β} :
    computed >>= next = .ok result ↔ ∃ value, computed = .ok value ∧ next value = .ok result := by
  cases computed <;> simp [bind, Except.bind]

theorem bind_eq_error_iff {next : α → Except ε β} {fault : ε} :
    computed >>= next = .error fault ↔
      computed = .error fault ∨ ∃ value, computed = .ok value ∧ next value = .error fault := by
  cases computed <;> simp [bind, Except.bind]

theorem bind_ok_eq_ok_iff {f : α → β} {result : β} :
    (computed >>= fun value => Except.ok (f value)) = .ok result ↔
      ∃ value, computed = .ok value ∧ f value = result := by
  cases computed <;> simp [bind, Except.bind]

theorem bind_ok_eq_error_iff {f : α → β} {fault : ε} :
    (computed >>= fun value => Except.ok (f value)) = .error fault ↔ computed = .error fault := by
  cases computed <;> simp [bind, Except.bind]

theorem toOption_bind_ok (f : α → β) :
    (computed >>= fun value => Except.ok (f value)).toOption = computed.toOption.map f := by
  cases computed <;> rfl

theorem toOption_eq_some_iff {value : α} :
    computed.toOption = some value ↔ computed = .ok value := by
  cases computed <;> simp [Except.toOption]

theorem map_eq_ok_iff {change : α → β} {result : β} :
    computed.map change = .ok result ↔ ∃ value, computed = .ok value ∧ change value = result := by
  cases computed <;> simp [Except.map]

theorem map_eq_error_iff {change : α → β} {fault : ε} :
    computed.map change = .error fault ↔ computed = .error fault := by
  cases computed <;> simp [Except.map]

theorem mapError_eq_ok_iff {ε' : Type} {change : ε → ε'} {value : α} :
    computed.mapError change = .ok value ↔ computed = .ok value := by
  cases computed <;> simp [Except.mapError]

theorem mapError_eq_error_iff {ε' : Type} {change : ε → ε'} {fault : ε'} :
    computed.mapError change = .error fault ↔
      ∃ cause, computed = .error cause ∧ change cause = fault := by
  cases computed <;> simp [Except.mapError]

theorem exists_of_mapM_eq_error {next : α → Except ε β} {values : List α} {fault : ε}
    (hfault : values.mapM next = .error fault) : ∃ value ∈ values, next value = .error fault := by
  induction values with
  | nil => contradiction
  | cons first rest ih =>
      rw [List.mapM_cons] at hfault
      rcases bind_eq_error_iff.mp hfault with hfirst | ⟨head, -, hfault⟩
      · exact ⟨first, List.mem_cons_self, hfirst⟩
      · rcases bind_eq_error_iff.mp hfault with hrest | ⟨tail, -, hpure⟩
        · obtain ⟨value, hvalue, hnext⟩ := ih hrest
          exact ⟨value, List.mem_cons_of_mem _ hvalue, hnext⟩
        · contradiction

theorem exists_of_mem_mapM
    {next : α → Except ε β} {values : List α} {results : List β} {result : β}
    (hresults : values.mapM next = .ok results) (hmem : result ∈ results) :
    ∃ value ∈ values, next value = .ok result := by
  induction values generalizing results with
  | nil =>
      cases hresults
      contradiction
  | cons first rest ih =>
      rw [List.mapM_cons] at hresults
      obtain ⟨head, hhead, hresults⟩ := bind_eq_ok_iff.mp hresults
      obtain ⟨tail, htail, hresults⟩ := bind_eq_ok_iff.mp hresults
      cases hresults
      rcases List.mem_cons.mp hmem with rfl | hlater
      · exact ⟨first, List.mem_cons_self, hhead⟩
      · obtain ⟨value, hvalue, hnext⟩ := ih htail hlater
        exact ⟨value, List.mem_cons_of_mem _ hvalue, hnext⟩

end

end Stencil
