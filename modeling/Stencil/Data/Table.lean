/-!
# Tables

A table is a list of entries in the order in which their keys were first written.  Writing an
existing key keeps its place.
-/

namespace Stencil.Table

variable {κ α : Type} [BEq κ]

def get? (table : List (κ × α)) (key : κ) : Option α :=
  (table.find? fun entry => entry.1 == key).map Prod.snd

def contains (table : List (κ × α)) (key : κ) : Bool :=
  table.any fun entry => entry.1 == key

/-- Write an entry: in its place if the key is there, and at the end otherwise. -/
def put (table : List (κ × α)) (key : κ) (value : α) : List (κ × α) :=
  match table with
  | [] => [(key, value)]
  | (k, v) :: rest => if k == key then (k, value) :: rest else (k, v) :: put rest key value

def erase (table : List (κ × α)) (key : κ) : List (κ × α) :=
  table.filter fun entry => !(entry.1 == key)

def keys (table : List (κ × α)) : List κ :=
  table.map Prod.fst

def ofList (entries : List (κ × α)) : List (κ × α) :=
  entries.foldl (fun table entry => put table entry.1 entry.2) []

theorem get?_put_self [LawfulBEq κ] (table : List (κ × α)) (key : κ) (value : α) :
    get? (put table key value) key = some value := by
  induction table with
  | nil => simp [put, get?]
  | cons entry rest ih =>
    by_cases hkey : entry.1 == key
    · simp [put, get?, hkey]
    · simpa [put, get?, hkey] using ih

theorem get?_put_of_ne [LawfulBEq κ] (table : List (κ × α)) {key other : κ} (value : α)
    (hne : other ≠ key) : get? (put table key value) other = get? table other := by
  induction table with
  | nil => simp [put, get?, Ne.symm hne]
  | cons entry rest ih =>
    by_cases hkey : entry.1 == key
    · have hentry : entry.1 = key := eq_of_beq hkey
      have hother : (entry.1 == other) = false := by
        simpa [hentry] using Ne.symm hne
      simp [put, get?, hkey, hother]
    · by_cases hother : entry.1 == other
      · simp [put, get?, hkey, hother]
      · simpa [put, get?, hkey, hother] using ih

end Stencil.Table
