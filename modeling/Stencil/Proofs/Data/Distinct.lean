import Stencil.Data.Json
import Stencil.Data.Yaml.Read
import Stencil.Proofs.Except

/-!
# One entry for each name

A mapping that is read from a text holds at most one entry under each name, since a later entry is
written over an earlier one.  Keys that are no names may be equal to each other as numbers, but none
of them is equal to a name.
-/

namespace Stencil

theorem Table.get?_nil {κ α : Type} [BEq κ] (key : κ) : Table.get? ([] : List (κ × α)) key = none :=
  rfl

theorem Table.get?_cons {κ α : Type} [BEq κ] (own key : κ) (value : α) (rest : List (κ × α)) :
    Table.get? ((own, value) :: rest) key =
      if own == key then some value else Table.get? rest key := by
  by_cases hown : own == key <;> simp [Table.get?, hown]

namespace Data

theorem Key.text_beq_iff (key : Key) (name : String) :
    (Key.text name == key) = true ↔ key = Key.text name := by
  change Key.same (Key.text name) key = true ↔ _
  cases key with
  | text other =>
      rw [Key.same, beq_iff_eq, Key.text.injEq]
      exact eq_comm
  | _ => simp [Key.same]

/-- Writing an entry shows under its own name only. -/
theorem get?_put_text (entries : List (Key × Value)) (key : Key) (value : Value) (name : String) :
    Table.get? (Table.put entries key value) (.text name) =
      if key == Key.text name then some value else Table.get? entries (.text name) := by
  induction entries with
  | nil => rw [Table.put, Table.get?_cons]
  | cons entry rest ih =>
      obtain ⟨own, old⟩ := entry
      rw [Table.put, Table.get?_cons]
      by_cases hsame : own == key
      · rw [if_pos hsame, Table.get?_cons]
        by_cases hown : own == Key.text name
        · obtain rfl := (Key.beq_text_iff own name).mp hown
          obtain rfl := (Key.text_beq_iff key name).mp hsame
          rw [if_pos hown, if_pos hown]
        · have hkey : ¬ (key == Key.text name) = true := by
            intro hkey
            obtain rfl := (Key.beq_text_iff key name).mp hkey
            contradiction
          rw [if_neg hown, if_neg hown, if_neg hkey]
      · rw [if_neg hsame, Table.get?_cons, ih]
        by_cases hown : own == Key.text name
        · have hkey : ¬ (key == Key.text name) = true := by
            intro hkey
            obtain rfl := (Key.beq_text_iff key name).mp hkey
            contradiction
          rw [if_pos hown, if_pos hown, if_neg hkey]
        · rw [if_neg hown, if_neg hown]

mutual

/-- No mapping has two entries under one name, nor does any that it leads to. -/
def Value.Distinct : Value → Prop
  | .map entries => DistinctEntries entries
  | _ => True

def DistinctEntries : List (Key × Value) → Prop
  | [] => True
  | (key, value) :: rest =>
    (∀ name, key = .text name → Table.get? rest (.text name) = none) ∧ value.Distinct ∧
      DistinctEntries rest

end

theorem DistinctEntries.put
    {entries : List (Key × Value)} {value : Value} (hentries : DistinctEntries entries)
    (hvalue : value.Distinct) (key : Key) :
    DistinctEntries (Table.put entries key value) := by
  induction entries with
  | nil => exact ⟨fun _ _ => rfl, hvalue, trivial⟩
  | cons entry rest ih =>
      obtain ⟨own, old⟩ := entry
      obtain ⟨hname, hold, hrest⟩ := hentries
      rw [Table.put]
      by_cases hsame : own == key
      · rw [if_pos hsame]
        exact ⟨hname, hvalue, hrest⟩
      · rw [if_neg hsame]
        refine ⟨?_, hold, ih hrest⟩
        rintro name rfl
        have hother : ¬ (key == Key.text name) = true := by
          rwa [Key.text_beq_iff, ← Key.beq_text_iff] at hsame
        rw [get?_put_text, if_neg hother, hname name rfl]

/-! ## Reading the data notation -/

theorem DistinctEntries.distinct_of_get?
    {entries : List (Key × Value)} {key : Key} {value : Value} (hentries : DistinctEntries entries)
    (hfound : Table.get? entries key = some value) : value.Distinct := by
  induction entries with
  | nil => contradiction
  | cons entry rest ih =>
      obtain ⟨own, first⟩ := entry
      obtain ⟨-, hfirst, hrest⟩ := hentries
      rw [Table.get?_cons] at hfound
      split at hfound
      next =>
        obtain rfl := Option.some.inj hfound
        exact hfirst
      next => exact ih hrest hfound

theorem Value.distinct_of_isMap {value : Value} (hvalue : value.isMap = false) :
    value.Distinct := by
  cases value with
  | map entries => contradiction
  | _ => trivial

namespace Json

theorem isMap_of_readWord?
    {text rest : List Char} {value : Value} (hread : readWord? text = some (value, rest)) :
    value.isMap = false := by
  obtain ⟨⟨word, known⟩, hmem, hfound⟩ := List.exists_of_findSome?_eq_some hread
  have hwords : ∀ entry ∈ words, entry.2.isMap = false := by
    simp only [words, List.forall_mem_cons]
    exact ⟨rfl, rfl, rfl, rfl, rfl, rfl, List.forall_mem_nil _⟩
  simp only [Option.ite_none_right_eq_some, Option.some.injEq, Prod.mk.injEq] at hfound
  rw [← hfound.2.1]
  exact hwords _ hmem

theorem isMap_of_readNumber
    {negative : Bool} {text rest : List Char} {value : Value}
    (hread : readNumber negative text = .ok (value, rest)) : value.isMap = false := by
  unfold readNumber at hread
  extract_lets leading whole behind at hread
  split at hread
  next => contradiction
  next =>
    dsimp only at hread
    split at hread
    next =>
      split at hread
      next => contradiction
      next =>
        cases hread
        rfl
    next =>
      cases hread
      rfl

theorem isMap_of_readScalar
    {text rest : List Char} {value : Value} (hread : readScalar text = .ok (value, rest)) :
    value.isMap = false := by
  unfold readScalar at hread
  split at hread
  next found hfound =>
    cases hread
    exact isMap_of_readWord? hfound
  next =>
    split at hread
    next =>
      split at hread
      next =>
        cases hread
        rfl
      next => contradiction
    next => exact isMap_of_readNumber hread
    next => exact isMap_of_readNumber hread

mutual

theorem distinct_of_readValue (fuel : Nat) {text rest : List Char} {value : Value}
    (hread : readValue fuel text = .ok (value, rest)) : value.Distinct := by
  cases fuel with
  | zero => simp [readValue] at hread
  | succ fuel =>
      unfold readValue at hread
      split at hread
      next =>
        split at hread
        next =>
          cases hread
          trivial
        next =>
          obtain ⟨⟨items, behind⟩, _, hitems⟩ := bind_eq_ok_iff.mp hread
          cases hitems
          trivial
      next =>
        split at hread
        next =>
          cases hread
          trivial
        next =>
          obtain ⟨⟨entries, behind⟩, hread, hmap⟩ := bind_eq_ok_iff.mp hread
          cases hmap
          have hnone : DistinctEntries [] := trivial
          exact distinctEntries_of_readEntries fuel hnone hread
      next => exact Value.distinct_of_isMap (isMap_of_readScalar hread)

theorem distinctEntries_of_readEntries
    (fuel : Nat) {read entries : List (Key × Value)} {text rest : List Char}
    (hdistinct : DistinctEntries read) (hread : readEntries fuel read text = .ok (entries, rest)) :
    DistinctEntries entries := by
  cases fuel with
  | zero => simp [readEntries] at hread
  | succ fuel =>
      unfold readEntries at hread
      split at hread
      next =>
        split at hread
        next => contradiction
        next =>
          split at hread
          next =>
            obtain ⟨⟨value, behind⟩, hvalue, hread⟩ := bind_eq_ok_iff.mp hread
            have hput := hdistinct.put (distinct_of_readValue fuel hvalue)
            dsimp only at hread
            split at hread
            next =>
              cases hread
              exact hput _
            next => exact distinctEntries_of_readEntries fuel (hput _) hread
            next => contradiction
          next => contradiction
      next => contradiction

end

theorem distinct_of_read {text : List Char} {value : Value} (hread : read text = .ok value) :
    value.Distinct := by
  obtain ⟨⟨found, rest⟩, hfound, hread⟩ := bind_eq_ok_iff.mp hread
  dsimp only at hread
  split at hread
  next =>
    cases hread
    exact distinct_of_readValue _ hfound
  next => contradiction

end Json

/-! ## Reading the notation with indentation -/

namespace Yaml

theorem isMap_of_plainValue
    {text : List Char} {value : Value} (hread : plainValue text = .ok value) :
    value.isMap = false := by
  unfold plainValue at hread
  dsimp only at hread
  iterate 4
    split at hread
    next =>
      cases hread
      rfl
  generalize Decimal.splitSign text = parts at hread
  obtain ⟨negative, body⟩ := parts
  dsimp only at hread
  cases hint : unsignedInt? body with
  | some result =>
      rw [hint] at hread
      cases result with
      | error problem => contradiction
      | ok n =>
          cases hread
          rfl
  | none =>
      rw [hint] at hread
      cases hfloat : unsignedFloat? (body.length != text.length) body with
      | some x =>
          rw [hfloat] at hread
          cases hread
          rfl
      | none =>
          rw [hfloat] at hread
          cases hread
          rfl

mutual

theorem Node.distinct_of_value
    (node : Node) {value : Value} (hvalue : node.value = .ok value) : value.Distinct := by
  cases node with
  | scalar plain text =>
      cases plain with
      | true => exact Value.distinct_of_isMap (isMap_of_plainValue hvalue)
      | false =>
          cases hvalue
          trivial
  | list items =>
      obtain ⟨values, _, hlist⟩ := bind_eq_ok_iff.mp hvalue
      cases hlist
      trivial
  | mapping entries =>
      obtain ⟨read, hread, hmap⟩ := bind_eq_ok_iff.mp hvalue
      cases hmap
      have hnone : DistinctEntries [] := trivial
      exact distinctEntries_of_entriesOf entries hnone hread

theorem distinctEntries_of_entriesOf
    (nodes : List (Node × Node)) {read entries : List (Key × Value)}
    (hread : DistinctEntries read) (hentries : entriesOf read nodes = .ok entries) :
    DistinctEntries entries := by
  cases nodes with
  | nil =>
      cases hentries
      exact hread
  | cons entry rest =>
      obtain ⟨name, node⟩ := entry
      obtain ⟨nameValue, _, hentries⟩ := bind_eq_ok_iff.mp hentries
      obtain ⟨key, _, hentries⟩ := bind_eq_ok_iff.mp hentries
      obtain ⟨value, hvalue, hentries⟩ := bind_eq_ok_iff.mp hentries
      have hput := hread.put (node.distinct_of_value hvalue)
      exact distinctEntries_of_entriesOf rest (hput _) hentries

end

theorem distinct_of_read {text : List Char} {value : Value} (hread : read text = .ok value) :
    value.Distinct := by
  obtain ⟨found, hfound, hread⟩ := bind_eq_ok_iff.mp hread
  obtain ⟨node?, hnode, hread⟩ := bind_eq_ok_iff.mp hread
  cases node? with
  | none =>
      cases hread
      trivial
  | some node => exact node.distinct_of_value hread

end Yaml

end Data

end Stencil
