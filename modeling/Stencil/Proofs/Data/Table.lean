import Stencil.Data.Table
import Mathlib.Algebra.GroupWithZero.Nat
import Mathlib.Data.List.Induction
import Mathlib.Data.List.Nodup

/-!
# Laws of tables

A table that was written entry by entry holds every key once.  Tables that answer alike hold the
same entries, and writing a list of entries adds at most their number, with equality only if each
of them is new.
-/

namespace Stencil.Table

variable {κ α : Type} {table : List (κ × α)} {key : κ} {value : α}

/-! ## What the values weigh -/

def weight (size : α → Nat) (table : List (κ × α)) : Nat :=
  (table.map fun entry => size entry.2).sum

variable [BEq κ]

theorem weight_put_le (size : α → Nat) :
    weight size (put table key value) ≤ weight size table + size value := by
  induction table with
  | nil => simp [put, weight]
  | cons entry rest ih =>
      by_cases hkey : entry.1 == key
      · simp only [put, if_pos hkey, weight, List.map_cons, List.sum_cons]
        omega
      · simp only [put, if_neg hkey, weight, List.map_cons, List.sum_cons] at ih ⊢
        omega

theorem ofList_concat (entries : List (κ × α)) (entry : κ × α) :
    ofList (entries ++ [entry]) = put (ofList entries) entry.1 entry.2 := by
  rw [ofList, List.foldl_append]
  rfl

theorem weight_ofList_le (size : α → Nat) (entries : List (κ × α)) :
    weight size (ofList entries) ≤ weight size entries := by
  induction entries using List.reverseRecOn with
  | nil => exact Nat.le_refl 0
  | append_singleton entries entry ih =>
      rw [ofList_concat]
      refine Nat.le_trans (weight_put_le size) ?_
      simp only [weight, List.map_append, List.map_cons, List.map_nil, List.sum_append,
        List.sum_cons, List.sum_nil] at ih ⊢
      omega

/-! ## Whether there is an entry -/

theorem contains_eq_isSome_get? (table : List (κ × α)) (key : κ) :
    contains table key = (get? table key).isSome := by
  rw [contains, get?, Option.isSome_map, List.isSome_find?]

variable [LawfulBEq κ]

/-! ## Writing one entry -/

theorem mem_keys_put {other : κ} :
    other ∈ keys (put table key value) ↔ other = key ∨ other ∈ keys table := by
  induction table with
  | nil => simp [put, keys]
  | cons entry rest ih =>
      by_cases hkey : entry.1 == key
      · have hentry : entry.1 = key := eq_of_beq hkey
        simp [put, keys, hentry]
      · simp only [put, if_neg hkey, keys, List.map_cons, List.mem_cons] at ih ⊢
        rw [ih]
        exact or_left_comm

theorem nodup_keys_put (hkeys : (keys table).Nodup) : (keys (put table key value)).Nodup := by
  induction table with
  | nil => simp [put, keys]
  | cons entry rest ih =>
      simp only [keys, List.map_cons, List.nodup_cons] at hkeys ih
      by_cases hkey : entry.1 == key
      · simpa [put, keys, hkey] using hkeys
      · simp only [put, if_neg hkey, keys, List.map_cons, List.nodup_cons]
        refine ⟨fun hmem => ?_, ih hkeys.2⟩
        rcases mem_keys_put.mp hmem with hsame | hlater
        · exact hkey (beq_iff_eq.mpr hsame)
        · exact hkeys.1 hlater

theorem put_of_notMem (hkey : key ∉ keys table) :
    put table key value = table ++ [(key, value)] := by
  induction table with
  | nil => rfl
  | cons entry rest ih =>
      simp only [keys, List.map_cons, List.mem_cons, not_or] at hkey
      have hother : ¬ (entry.1 == key) = true := fun hsame => hkey.1 (eq_of_beq hsame).symm
      rw [put, if_neg hother, ih hkey.2, List.cons_append]

theorem length_put_of_mem (hkey : key ∈ keys table) :
    (put table key value).length = table.length := by
  induction table with
  | nil => simp [keys] at hkey
  | cons entry rest ih =>
      by_cases hsame : entry.1 == key
      · simp [put, hsame]
      · simp only [keys, List.map_cons, List.mem_cons] at hkey
        have hlater : key ∈ keys rest :=
          hkey.resolve_left fun heq => hsame (beq_iff_eq.mpr heq.symm)
        rw [put, if_neg hsame, List.length_cons, List.length_cons, ih hlater]

theorem length_put_le (table : List (κ × α)) (key : κ) (value : α) :
    (put table key value).length ≤ table.length + 1 := by
  by_cases hkey : key ∈ keys table
  · rw [length_put_of_mem hkey]
    exact Nat.le_succ table.length
  · have hlength : (put table key value).length = table.length + 1 := by
      rw [put_of_notMem hkey, List.length_append, List.length_singleton]
    exact Nat.le_of_eq hlength

/-! ## Reading -/

theorem get?_eq_some_iff (hkeys : (keys table).Nodup) :
    get? table key = some value ↔ (key, value) ∈ table := by
  induction table with
  | nil => simp [get?]
  | cons entry rest ih =>
      obtain ⟨own, held⟩ := entry
      simp only [keys, List.map_cons, List.nodup_cons] at hkeys
      by_cases hown : own == key
      · have hsame : own = key := eq_of_beq hown
        subst hsame
        have hnot : (own, value) ∉ rest := fun hmem => hkeys.1 (List.mem_map_of_mem hmem)
        simp [get?, hnot, eq_comm]
      · have hne : key ≠ own := fun hsame => hown (beq_iff_eq.mpr hsame.symm)
        have hrest := ih hkeys.2
        simp only [get?, List.find?_cons, hown] at hrest ⊢
        rw [hrest]
        simp [hne]

theorem get?_erase_self (table : List (κ × α)) (key : κ) : get? (erase table key) key = none := by
  have hnone : (erase table key).find? (fun entry => entry.1 == key) = none := by
    rw [List.find?_eq_none]
    intro entry hentry
    simpa [erase] using (List.mem_filter.mp hentry).2
  rw [get?, hnone, Option.map_none]

theorem get?_erase_of_ne (table : List (κ × α)) {key other : κ} (hne : other ≠ key) :
    get? (erase table key) other = get? table other := by
  induction table with
  | nil => rfl
  | cons entry rest ih =>
      by_cases hkey : entry.1 == key
      · have hother : (entry.1 == other) = false := by
          simpa [eq_of_beq hkey] using Ne.symm hne
        have hfound : get? (entry :: rest) other = get? rest other := by
          simp [get?, hother]
        rw [hfound, ← ih]
        simp [erase, hkey]
      · have hkept : erase (entry :: rest) key = entry :: erase rest key := by
          simp [erase, hkey]
        by_cases hother : entry.1 == other
        · simp [hkept, get?, hother]
        · simpa [hkept, get?, hother] using ih

/-- Tables that hold every key once and answer alike hold the same entries. -/
theorem perm_of_get?_eq {other : List (κ × α)} (hkeys : (keys table).Nodup)
    (hother : (keys other).Nodup) (hget : ∀ key, get? table key = get? other key) :
    table.Perm other := by
  rw [List.perm_ext_iff_of_nodup (List.Nodup.of_map Prod.fst hkeys)
    (List.Nodup.of_map Prod.fst hother)]
  rintro ⟨key, value⟩
  rw [← get?_eq_some_iff hkeys, ← get?_eq_some_iff hother, hget]

/-! ## Writing a list of entries -/

theorem nodup_keys_ofList (entries : List (κ × α)) : (keys (ofList entries)).Nodup := by
  induction entries using List.reverseRecOn with
  | nil => exact List.nodup_nil
  | append_singleton entries entry ih =>
      rw [ofList_concat]
      exact nodup_keys_put ih

theorem length_ofList_le (entries : List (κ × α)) : (ofList entries).length ≤ entries.length := by
  induction entries using List.reverseRecOn with
  | nil => exact Nat.le_refl 0
  | append_singleton entries entry ih =>
      rw [ofList_concat, List.length_append, List.length_singleton]
      exact Nat.le_trans (length_put_le _ _ _) (Nat.succ_le_succ ih)

/-- If no entry is lost, every one of them stands where it was written. -/
theorem ofList_eq_self_of_length_le
    {entries : List (κ × α)} (hlength : entries.length ≤ (ofList entries).length) :
    ofList entries = entries := by
  induction entries using List.reverseRecOn with
  | nil => rfl
  | append_singleton entries entry ih =>
      rw [ofList_concat] at hlength ⊢
      rw [List.length_append, List.length_singleton] at hlength
      have hbefore := length_ofList_le entries
      by_cases hkey : entry.1 ∈ keys (ofList entries)
      · rw [length_put_of_mem hkey] at hlength
        omega
      · have hlater := length_put_le (ofList entries) entry.1 entry.2
        rw [put_of_notMem hkey, ih (by omega)]

theorem ofList_eq_self {entries : List (κ × α)} (hkeys : (keys entries).Nodup) :
    ofList entries = entries := by
  induction entries using List.reverseRecOn with
  | nil => rfl
  | append_singleton entries entry ih =>
      rw [keys, List.map_append, List.nodup_append] at hkeys
      obtain ⟨hfirst, -, hapart⟩ := hkeys
      have hnew : entry.1 ∉ keys entries := fun hmem =>
        hapart entry.1 hmem entry.1 (by simp) rfl
      rw [ofList_concat, ih hfirst, put_of_notMem hnew]

end Stencil.Table
