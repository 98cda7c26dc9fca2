import Stencil.Engine.Cache
import Mathlib.Data.List.Dedup
import Mathlib.Data.List.DropRight

/-!
# The cache as a list of recent codes

The codes that were used last, each at the place of its last use, tell what the cache holds: under
their keys, in this order, what they are read to.  Keeping a template writes the use of its code at
the end of this list, whether or not the template was there.
-/

namespace Stencil.Engine

open Stencil.Host

/-! ## Recent codes -/

/-- Of all codes that were used, those whose last uses are the latest, in the order of these. -/
def recent (size : Nat) (used : List (List Char)) : List (List Char) :=
  used.dedup.rtake size

variable {code : List Char} {used : List (List Char)} {size : Nat}

theorem dedup_concat (used : List (List Char)) (code : List Char) :
    (used ++ [code]).dedup = used.dedup.filter (· ≠ code) ++ [code] := by
  induction used with
  | nil => rfl
  | cons first rest ih =>
      rw [List.cons_append]
      by_cases hlater : first ∈ rest
      · rw [List.dedup_cons_of_mem (List.mem_append_left _ hlater), List.dedup_cons_of_mem hlater, ih]
      · by_cases hfirst : first = code
        · subst hfirst
          rw [List.dedup_cons_of_mem (by simp), List.dedup_cons_of_notMem hlater, ih]
          simp
        · rw [List.dedup_cons_of_notMem (by simp [hlater, hfirst]),
            List.dedup_cons_of_notMem hlater, ih]
          simp [hfirst]

theorem rtake_append_of_le_length
    {back : List (List Char)} (hsize : size ≤ back.length) (front : List (List Char)) :
    (front ++ back).rtake size = back.rtake size := by
  have hfront : front.length ≤ (front ++ back).length - size := by
    rw [List.length_append]
    omega
  rw [List.rtake, List.rtake, List.drop_append, List.drop_eq_nil_of_le hfront, List.nil_append,
    List.length_append]
  congr 1
  omega

theorem length_le_length_filter_ne
    {codes : List (List Char)} (hnodup : codes.Nodup) (code : List Char) :
    codes.length ≤ (codes.filter (· ≠ code)).length + 1 := by
  have herase : codes.erase code = codes.filter (· ≠ code) := by
    rw [hnodup.erase_eq_filter]
    apply List.filter_congr
    intro other _
    rw [bne, decide_not, beq_eq_decide]
  rw [← herase, List.length_erase]
  split <;> omega

/-- A use moves a code to the end, and the oldest code may have to go. -/
theorem recent_concat (size : Nat) (used : List (List Char)) (code : List Char) :
    recent size (used ++ [code]) = ((recent size used).filter (· ≠ code) ++ [code]).rtake size := by
  have hsplit : used.dedup.rdrop size ++ used.dedup.rtake size = used.dedup :=
    List.take_append_drop _ _
  by_cases hshort : used.dedup.length ≤ size
  · have hall : used.dedup.rtake size = used.dedup := by
      rw [List.rtake, Nat.sub_eq_zero_of_le hshort, List.drop_zero]
    rw [recent, recent, dedup_concat, hall]
  · have hlength : (used.dedup.rtake size).length = size := by
      rw [List.rtake, List.length_drop]
      omega
    have hnodup : (used.dedup.rtake size).Nodup :=
      used.nodup_dedup.sublist (List.drop_sublist _ _)
    have hkept := length_le_length_filter_ne hnodup code
    rw [recent, recent, dedup_concat]
    nth_rewrite 1 [← hsplit]
    rw [List.filter_append, List.append_assoc, rtake_append_of_le_length]
    rw [List.length_append, List.length_singleton]
    omega

theorem length_recent (size : Nat) (used : List (List Char)) :
    (recent size used).length = min size used.dedup.length := by
  rw [recent, List.rtake, List.length_drop]
  omega

theorem subset_recent (size : Nat) (used : List (List Char)) : recent size used ⊆ used :=
  fun _ hmem => List.mem_dedup.mp (List.mem_of_mem_drop hmem)

/-! ## What the cache holds -/

variable {read : List Char → Except Problem Template} {cache : Cache} {template : Template}

/-- The cache holds, in order, what the codes are read to, each under its key. -/
def Cache.Holds (cache : Cache) (read : List Char → Except Problem Template)
    (codes : List (List Char)) : Prop :=
  cache.map (fun entry => (entry.1, Except.ok entry.2)) =
    codes.map fun code => (Cache.keyOf code, read code)

/-- The key tells the code from all others of the list. -/
def KeyTells (code : List Char) (codes : List (List Char)) : Prop :=
  ∀ other ∈ codes, Cache.keyOf other = Cache.keyOf code → other = code

theorem Cache.holds_nil (read : List Char → Except Problem Template) {size : Nat} :
    Cache.Holds [] read (recent size []) := by
  rw [Cache.Holds, recent, List.dedup_nil, List.rtake_nil]
  rfl

theorem Cache.Holds.length_eq
    {codes : List (List Char)} (hholds : cache.Holds read codes) :
    cache.length = codes.length := by
  have hlengths := congrArg List.length hholds
  rwa [List.length_map, List.length_map] at hlengths

theorem Cache.Holds.template_eq
    {codes : List (List Char)} (hholds : cache.Holds read codes)
    (hkey : KeyTells code codes)
    (hfound : Table.get? cache (Cache.keyOf code) = some template) :
    read code = .ok template := by
  obtain ⟨⟨key, found⟩, hentry, rfl⟩ := Option.map_eq_some_iff.mp hfound
  have hmem := List.mem_map_of_mem (f := fun entry : List Char × Template =>
    (entry.1, (Except.ok entry.2 : Except Problem Template))) (List.mem_of_find?_eq_some hentry)
  rw [hholds] at hmem
  obtain ⟨other, hother, heq⟩ := List.mem_map.mp hmem
  have hsame : key = Cache.keyOf code := by simpa using List.find?_some hentry
  obtain ⟨hkeys, htemplate⟩ := Prod.mk.inj heq
  obtain rfl := hkey other hother (hkeys.trans hsame)
  exact htemplate

theorem Cache.Holds.erase
    {codes : List (List Char)} (hholds : cache.Holds read codes)
    (hkey : KeyTells code codes) :
    Cache.Holds (Table.erase cache (Cache.keyOf code)) read (codes.filter (· ≠ code)) := by
  have hother : ∀ other ∈ codes,
      (!(Cache.keyOf other == Cache.keyOf code)) = decide (other ≠ code) := by
    intro other hother
    by_cases hsame : other = code
    · simp [hsame]
    · have hkeys : Cache.keyOf other ≠ Cache.keyOf code :=
        fun hkeys => hsame (hkey other hother hkeys)
      simp [hsame, hkeys]
  have herase := congrArg (List.filter fun entry : List Char × Except Problem Template =>
    !(entry.1 == Cache.keyOf code)) hholds
  rw [List.filter_map, List.filter_map] at herase
  rw [Cache.Holds, ← List.filter_congr hother]
  exact herase

/-- The cache with a template at its end, without the entries that there is no room for. -/
def Cache.put (cache : Cache) (key : List Char) (template : Template) (size : Nat) : Cache :=
  List.rtake (Table.erase cache key ++ [(key, template)]) size

theorem Cache.insert_int (cache : Cache) (key : List Char) (template : Template) (size : Nat) :
    cache.insert key template (.int size) = (.ok (), cache.put key template size) :=
  shrink_int size _

theorem Cache.Holds.put
    (hholds : cache.Holds read (recent size used)) (hkey : KeyTells code used)
    (hread : read code = .ok template) :
    (cache.put (Cache.keyOf code) template size).Holds read (recent size (used ++ [code])) := by
  have hkept := hholds.erase fun other hother => hkey other (subset_recent size used hother)
  have hlength := hkept.length_eq
  rw [Cache.Holds] at hkept
  rw [Cache.Holds, recent_concat, Cache.put, List.rtake, List.rtake, List.map_drop, List.map_drop,
    List.map_append, List.map_append, hkept, List.length_append, List.length_append, hlength]
  simp [hread]

/-- To find a template moves it as if it were kept anew. -/
theorem Cache.touch_eq_put
    (hlength : cache.length ≤ size) {key : List Char}
    (hfound : Table.get? cache key = some template) :
    cache.touch key = cache.put key template size := by
  obtain ⟨entry, hentry, -⟩ := Option.map_eq_some_iff.mp hfound
  have herased : (Table.erase cache key).length < cache.length := by
    apply List.length_filter_lt_length_iff_exists.mpr
    exact ⟨entry, List.mem_of_find?_eq_some hentry, by simpa using List.find?_some hentry⟩
  have hroom : (Table.erase cache key ++ [(key, template)]).length - size = 0 := by
    rw [List.length_append, List.length_singleton]
    omega
  rw [Cache.touch, hfound, Cache.put, List.rtake, hroom]
  rfl

end Stencil.Engine
