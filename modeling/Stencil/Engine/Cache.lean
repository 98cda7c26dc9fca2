import Stencil.Data.Table
import Stencil.Digest.Sha256
import Stencil.Host.Environment

/-!
# The cache of templates

Templates that have been read are kept under the digest of their code, the least recently used one
first.  The cache holds no more of them than its size allows.
-/

namespace Stencil.Engine

open Stencil.Host

abbrev Cache := List (List Char × Template)

namespace Cache

def keyOf (code : List Char) : List Char :=
  Digest.Sha256.hexOfText code

def touch (cache : Cache) (key : List Char) : Cache :=
  match Table.get? cache key with
  | some template => Table.erase cache key ++ [(key, template)]
  | none => cache

/-- Whether there are more templates than a size says.  What is no number says nothing. -/
def exceeds (count : Nat) (size : Data.Value) : Except Problem Bool :=
  match size with
  | .int n => .ok (n < count)
  | .bool b => .ok (Data.boolInt b < count)
  | .float x => .ok (x < Float.ofNat count)
  | _ => .error .wrongType

/-- Drop the least recently used templates until there are not more than the size says.  Below zero
there is nothing left to drop. -/
def shrink (size : Data.Value) : Cache → Except Problem Unit × Cache
  | [] => ((exceeds 0 size).bind fun tooMany => if tooMany then .error .wrongValue else .ok (), [])
  | entry :: rest =>
    match exceeds (rest.length + 1) size with
    | .ok true => shrink size rest
    | .ok false => (.ok (), entry :: rest)
    | .error problem => (.error problem, entry :: rest)

/-- Keep a template.  It is kept even if the size is of no use. -/
def insert (cache : Cache) (key : List Char) (template : Template) (size : Data.Value) :
    Except Problem Unit × Cache :=
  shrink size (Table.erase cache key ++ [(key, template)])

def keys (cache : Cache) : List (List Char) :=
  Table.keys cache

theorem exceeds_int (count size : Nat) :
    exceeds count (.int size) = .ok (decide (size < count)) := by
  simp only [exceeds, Int.ofNat_lt]

theorem shrink_int (size : Nat) (cache : Cache) :
    shrink (.int size) cache = (.ok (), cache.drop (cache.length - size)) := by
  induction cache with
  | nil =>
      rw [shrink, exceeds_int, decide_eq_false (Nat.not_lt_zero size), List.drop_nil]
      rfl
  | cons entry rest ih =>
      rw [shrink, exceeds_int, List.length_cons]
      by_cases hover : size < rest.length + 1
      · rw [decide_eq_true hover, Nat.sub_add_comm (Nat.le_of_lt_succ hover), List.drop_succ_cons]
        exact ih
      · rw [decide_eq_false hover, Nat.sub_eq_zero_of_le (Nat.le_of_not_lt hover), List.drop_zero]

/-- The cache never grows beyond its size. -/
theorem length_insert_le (cache : Cache) (key : List Char) (template : Template) (size : Nat) :
    (cache.insert key template (.int size)).2.length ≤ size := by
  rw [insert, shrink_int, List.length_drop]
  omega

end Cache

end Stencil.Engine
