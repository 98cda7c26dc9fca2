import Stencil.Proofs.Text.Pieces
import Stencil.Proofs.Text.Search
import Stencil.Sheet.Reference

/-!
# References and marks side by side

The marks that hold the places of imports and the relative references of a sheet have no character
in common, so that leading the references through another path leaves the marks where they are.
-/

namespace Stencil.Sheet

open Stencil.Text

/-! ## What a relative reference is -/

/-- The dots of a reference, as they stand in the sheet. -/
def dots (upwards : Bool) : List Char :=
  if upwards then "../".toList else "./".toList

/-- What is left of the dots when the reference is led through another path. -/
def steps (upwards : Bool) : List Char :=
  if upwards then "../".toList else []

theorem dots_ne_nil (upwards : Bool) : dots upwards ≠ [] := by
  cases upwards <;> decide

/-- What introduces a relative reference. -/
def leads : List (List Char) := [['"'], ['\''], ['u', 'r', 'l', '(']]

theorem head_mem_of_lead
    {lead rest text : List Char} {c : Char} (hlead : lead ∈ leads)
    (htext : c :: text = lead ++ rest) : c ∈ ['"', '\'', 'u'] := by
  simp only [leads, List.mem_cons, List.not_mem_nil, or_false] at hlead
  rcases hlead with rfl | rfl | rfl <;>
    · obtain ⟨rfl, -⟩ := List.cons.inj htext
      simp

theorem dots?_eq_some_iff {text : List Char} {upwards : Bool} :
    dots? text = some upwards ↔ ∃ rest, text = dots upwards ++ rest := by
  constructor
  · intro hdots
    rw [dots?.eq_def] at hdots
    split at hdots
    next rest =>
      obtain rfl := Option.some.inj hdots
      exact ⟨rest, rfl⟩
    next rest =>
      obtain rfl := Option.some.inj hdots
      exact ⟨rest, rfl⟩
    next => contradiction
  · rintro ⟨rest, rfl⟩
    cases upwards <;> rfl

theorem relative?_of_lead
    {lead : List Char} (hlead : lead ∈ leads) (upwards : Bool) (rest : List Char) :
    relative? (lead ++ dots upwards ++ rest) =
      some ⟨(lead ++ dots upwards).length, lead, upwards⟩ := by
  simp only [leads, List.mem_cons, List.not_mem_nil, or_false] at hlead
  rcases hlead with rfl | rfl | rfl <;> cases upwards <;> rfl

theorem exists_of_relative?
    {text : List Char} {hit : Hit Relative} (hhit : relative? text = some hit) :
    hit.value.lead ∈ leads ∧ hit.width = (hit.value.lead ++ dots hit.value.upwards).length ∧
      ∃ rest, text = hit.value.lead ++ dots hit.value.upwards ++ rest := by
  have hfound : ∀ lead ∈ leads, ∀ rest, text = lead ++ rest →
      (dots? rest).map (fun upwards =>
        (⟨lead.length + (if upwards then 3 else 2), lead, upwards⟩ : Hit Relative)) = some hit →
      hit.value.lead ∈ leads ∧ hit.width = (hit.value.lead ++ dots hit.value.upwards).length ∧
        ∃ rest, text = hit.value.lead ++ dots hit.value.upwards ++ rest := by
    intro lead hlead rest htext hmap
    obtain ⟨upwards, hdots, rfl⟩ := Option.map_eq_some_iff.mp hmap
    obtain ⟨behind, rfl⟩ := dots?_eq_some_iff.mp hdots
    refine ⟨hlead, ?_, behind, ?_⟩
    · rw [List.length_append]
      cases upwards <;> rfl
    · rw [htext, List.append_assoc]
  rw [relative?.eq_def] at hhit
  dsimp only at hhit
  split at hhit
  next rest => exact hfound ['"'] (by simp [leads]) rest rfl hhit
  next rest => exact hfound ['\''] (by simp [leads]) rest rfl hhit
  next rest => exact hfound ['u', 'r', 'l', '('] (by simp [leads]) rest rfl hhit
  next => contradiction

theorem relative?_eq_none_of_append
    {front back : List Char} (hnone : relative? (front ++ back) = none) :
    relative? front = none := by
  cases hhit : relative? front with
  | none => rfl
  | some hit =>
      obtain ⟨hlead, -, behind, rfl⟩ := exists_of_relative? hhit
      rw [List.append_assoc _ behind, relative?_of_lead hlead] at hnone
      contradiction

/-! ## What a mark is -/

def IsDigits (digits : List Char) : Prop :=
  digits ≠ [] ∧ ∀ c ∈ digits, (decimalValue? c).isSome

theorem notMem_of_isDigit {c : Char} (hc : (decimalValue? c).isSome) : c ∉ ['"', '\'', 'u'] := by
  simp only [List.mem_cons, List.not_mem_nil, or_false, not_or]
  refine ⟨?_, ?_, ?_⟩ <;>
    · rintro rfl
      revert hc
      decide

def numberOf (digits : List Char) : Nat :=
  digits.foldl (fun n c => 10 * n + (decimalValue? c).getD 0) 0

theorem importMark?_of_digits {digits : List Char} (hdigits : IsDigits digits) (rest : List Char) :
    importMark? ('\x00' :: digits ++ '\x00' :: rest) =
      some ⟨digits.length + 2, numberOf digits⟩ := by
  have htake : (digits ++ '\x00' :: rest).takeWhile (fun c => (decimalValue? c).isSome) =
      digits := by
    rw [List.takeWhile_append_of_pos hdigits.2, List.takeWhile_cons_of_neg (by decide),
      List.append_nil]
  obtain ⟨c, later, rfl⟩ := List.exists_cons_of_ne_nil hdigits.1
  rw [List.cons_append, importMark?, htake, List.drop_left]
  rfl

theorem exists_of_importMark? {text : List Char} {hit : Hit Nat}
    (hhit : importMark? text = some hit) :
    ∃ digits rest, IsDigits digits ∧ text = '\x00' :: digits ++ '\x00' :: rest ∧
      hit = ⟨digits.length + 2, numberOf digits⟩ := by
  rw [importMark?.eq_def] at hhit
  split at hhit
  next rest =>
    dsimp only at hhit
    split at hhit
    next c later behind hdigits hbehind =>
      refine ⟨c :: later, behind, ⟨List.cons_ne_nil _ _, ?_⟩, ?_, ?_⟩
      · intro d hd
        rw [← hdigits] at hd
        exact List.all_eq_true.mp List.all_takeWhile d hd
      · rw [List.cons_append, ← hbehind, ← hdigits,
          List.prefix_iff_eq_append.mp (List.takeWhile_prefix _)]
      · rw [← Option.some.inj hhit, ← hdigits, numberOf]
    next => contradiction
  next => contradiction

theorem idle_importMark? {stretch : List Char} (hnull : '\x00' ∉ stretch) (behind : List Char) :
    Idle importMark? stretch behind := by
  intro tail htail hnonempty
  obtain ⟨c, later, rfl⟩ := List.exists_cons_of_ne_nil hnonempty
  cases hmark : importMark? (c :: later ++ behind) with
  | none => rfl
  | some hit =>
      obtain ⟨digits, rest, -, htext, -⟩ := exists_of_importMark? hmark
      obtain ⟨rfl, -⟩ := List.cons.inj htext
      exact absurd (htail.subset List.mem_cons_self) hnull

theorem cut_mark {digits : List Char} (hdigits : IsDigits digits) (rest : List Char) :
    cut importMark? ('\x00' :: digits ++ '\x00' :: rest) =
      .plain [] :: .hit ('\x00' :: digits ++ ['\x00']) (numberOf digits) ::
        cut importMark? rest := by
  have hmark := importMark?_of_digits hdigits rest
  have hlength : digits.length + 2 = ('\x00' :: digits ++ ['\x00']).length := by simp
  have htext : '\x00' :: digits ++ '\x00' :: rest = ('\x00' :: digits ++ ['\x00']) ++ rest := by
    simp
  rw [htext, hlength] at hmark
  rw [htext]
  exact cut_append_of_some (List.cons_ne_nil _ _) hmark

/-! ## References led through a path -/

section

variable {through : List Char}

theorem leadReferences_nil : leadReferences through [] = [] :=
  substitute_nil

theorem leadReferences_of_lead
    {lead : List Char} (hlead : lead ∈ leads) (upwards : Bool) (rest : List Char) :
    leadReferences through (lead ++ dots upwards ++ rest) =
      lead ++ through ++ steps upwards ++ leadReferences through rest := by
  exact substitute_append_of_some (List.append_ne_nil_of_right_ne_nil lead (dots_ne_nil upwards))
    (relative?_of_lead hlead upwards rest)

theorem leadReferences_cons_of_none
    {c : Char} {rest : List Char} (hnone : relative? (c :: rest) = none) :
    leadReferences through (c :: rest) = c :: leadReferences through rest :=
  substitute_cons_of_none hnone

theorem leadReferences_cons_of_notMem
    {c : Char} (hc : c ∉ ['"', '\'', 'u']) (rest : List Char) :
    leadReferences through (c :: rest) = c :: leadReferences through rest := by
  apply leadReferences_cons_of_none
  cases hhit : relative? (c :: rest) with
  | none => rfl
  | some hit =>
      obtain ⟨hlead, -, behind, htext⟩ := exists_of_relative? hhit
      rw [List.append_assoc] at htext
      exact absurd (head_mem_of_lead hlead htext) hc

theorem leadReferences_append_of_notMem
    {front : List Char} (hfront : ∀ c ∈ front, c ∉ ['"', '\'', 'u']) (rest : List Char) :
    leadReferences through (front ++ rest) = front ++ leadReferences through rest := by
  induction front with
  | nil => rfl
  | cons c front ih =>
      rw [List.forall_mem_cons] at hfront
      rw [List.cons_append, leadReferences_cons_of_notMem hfront.1, ih hfront.2, List.cons_append]

theorem leadReferences_mark {digits : List Char} (hdigits : IsDigits digits) (rest : List Char) :
    leadReferences through ('\x00' :: digits ++ '\x00' :: rest) =
      '\x00' :: digits ++ '\x00' :: leadReferences through rest := by
  have hmark : ∀ c ∈ '\x00' :: digits ++ ['\x00'], c ∉ ['"', '\'', 'u'] := by
    intro c hc
    rw [List.mem_append, List.mem_cons, List.mem_singleton] at hc
    rcases hc with (rfl | hdigit) | rfl
    · decide
    · exact notMem_of_isDigit (hdigits.2 c hdigit)
    · decide
  have hled : leadReferences through ('\x00' :: digits ++ ['\x00'] ++ rest) =
      '\x00' :: digits ++ ['\x00'] ++ leadReferences through rest :=
    leadReferences_append_of_notMem hmark rest
  simpa using hled

theorem exists_of_leadReferences_eq_cons
    {c : Char} {text rest : List Char} (hc : c ∉ ['"', '\'', 'u'])
    (htext : leadReferences through text = c :: rest) : ∃ later, text = c :: later := by
  cases text with
  | nil => rw [leadReferences_nil] at htext; contradiction
  | cons d text =>
      cases hhit : relative? (d :: text) with
      | none =>
          rw [leadReferences_cons_of_none hhit] at htext
          obtain ⟨rfl, -⟩ := List.cons.inj htext
          exact ⟨text, rfl⟩
      | some hit =>
          obtain ⟨hlead, -, behind, heq⟩ := exists_of_relative? hhit
          rw [heq, leadReferences_of_lead hlead, List.append_assoc, List.append_assoc] at htext
          exact absurd (head_mem_of_lead hlead htext.symm) hc

/-- What looks like the rest of a mark when references are led looked like it before. -/
theorem exists_of_leadReferences_eq
    {digits text rest : List Char} (hdigits : ∀ c ∈ digits, (decimalValue? c).isSome)
    (htext : leadReferences through text = digits ++ '\x00' :: rest) :
    ∃ behind, text = digits ++ '\x00' :: behind := by
  induction digits generalizing text with
  | nil =>
      obtain ⟨behind, rfl⟩ := exists_of_leadReferences_eq_cons (by decide) htext
      exact ⟨behind, rfl⟩
  | cons c digits ih =>
      rw [List.forall_mem_cons] at hdigits
      have hc := notMem_of_isDigit hdigits.1
      obtain ⟨later, rfl⟩ := exists_of_leadReferences_eq_cons hc htext
      rw [leadReferences_cons_of_notMem hc, List.cons_append] at htext
      obtain ⟨behind, rfl⟩ := ih hdigits.2 (List.cons.inj htext).2
      exact ⟨behind, rfl⟩

theorem null_notMem_of_lead
    {lead : List Char} (hlead : lead ∈ leads) (upwards : Bool) :
    '\x00' ∉ lead ++ dots upwards ∧ '\x00' ∉ lead ++ steps upwards := by
  simp only [leads, List.mem_cons, List.not_mem_nil, or_false] at hlead
  rcases hlead with rfl | rfl | rfl <;> cases upwards <;> decide

def leadPiece (through : List Char) : Piece Nat → Piece Nat
  | .plain text => .plain (leadReferences through text)
  | .hit found number => .hit found number

theorem map_leadPiece_prepend
    {front led stretch : List Char} {pieces : List (Piece Nat)}
    (hled : leadReferences through (front ++ stretch) = led ++ leadReferences through stretch) :
    (prepend front (.plain stretch :: pieces)).map (leadPiece through) =
      prepend led ((Piece.plain stretch :: pieces).map (leadPiece through)) := by
  rw [prepend, List.map_cons, List.map_cons, leadPiece, leadPiece, hled, prepend]

theorem importMark?_leadReferences_of_none
    {c : Char} {rest : List Char} (hmark : importMark? (c :: rest) = none) :
    importMark? (c :: leadReferences through rest) = none := by
  cases hhit : importMark? (c :: leadReferences through rest) with
  | none => rfl
  | some hit =>
      obtain ⟨digits, behind, hdigits, htext, -⟩ := exists_of_importMark? hhit
      obtain ⟨rfl, hrest⟩ := List.cons.inj htext
      obtain ⟨later, rfl⟩ := exists_of_leadReferences_eq hdigits.2 hrest
      have hsome := importMark?_of_digits hdigits later
      rw [List.cons_append, hmark] at hsome
      contradiction

/-- The marks are the same before and after references are led. -/
theorem cut_leadReferences (hthrough : '\x00' ∉ through) (text : List Char) :
    cut importMark? (leadReferences through text) =
      (cut importMark? text).map (leadPiece through) := by
  induction hlength : text.length using Nat.strongRecOn generalizing text with
  | ind length ih =>
  subst hlength
  cases text with
  | nil => simp [leadReferences_nil, cut, cutFrom, leadPiece]
  | cons c rest =>
      cases hmark : importMark? (c :: rest) with
      | some hit =>
          obtain ⟨digits, behind, hdigits, htext, -⟩ := exists_of_importMark? hmark
          have hbehind := ih behind.length (by rw [htext]; simp; omega) behind rfl
          rw [htext, leadReferences_mark hdigits, cut_mark hdigits, cut_mark hdigits, hbehind,
            List.map_cons, List.map_cons, leadPiece, leadPiece, leadReferences_nil]
      | none =>
          cases hhit : relative? (c :: rest) with
          | some hit =>
              obtain ⟨hlead, -, behind, htext⟩ := exists_of_relative? hhit
              obtain ⟨hdots, hsteps⟩ := null_notMem_of_lead hlead hit.value.upwards
              have hled : '\x00' ∉ hit.value.lead ++ through ++ steps hit.value.upwards := by
                simp only [List.mem_append, not_or] at hsteps ⊢
                exact ⟨⟨hsteps.1, hthrough⟩, hsteps.2⟩
              have hshorter : behind.length < (c :: rest).length := by
                have hwidth := List.length_pos_iff.mpr (dots_ne_nil hit.value.upwards)
                rw [htext, List.length_append, List.length_append]
                omega
              obtain ⟨stretch, pieces, hcut, -⟩ := exists_cut_eq_cons importMark? behind
              rw [htext, leadReferences_of_lead hlead, cut_append_of_idle (idle_importMark? hdots _),
                cut_append_of_idle (idle_importMark? hled _), ih _ hshorter behind rfl, hcut,
                map_leadPiece_prepend (leadReferences_of_lead hlead _ stretch)]
          | none =>
              obtain ⟨stretch, pieces, hcut, hrest⟩ := exists_cut_eq_cons importMark? rest
              have hbehind := ih rest.length (Nat.lt_succ_self _) rest rfl
              have hstretch : relative? (c :: stretch) = none := by
                rw [hrest, ← List.cons_append] at hhit
                exact relative?_eq_none_of_append hhit
              rw [leadReferences_cons_of_none hhit, cut_cons_of_none hmark,
                cut_cons_of_none (importMark?_leadReferences_of_none hmark), hbehind, hcut]
              exact (map_leadPiece_prepend (leadReferences_cons_of_none hstretch)).symm

end

end Stencil.Sheet
