import Stencil.Proofs.Text.Cut

/-!
# Pieces that a cut gives back

Pieces are settled if each match is recognised where it stands, in its whole width, and no place
between the matches begins one.  Cutting gives settled pieces, and cutting the text of settled
pieces gives these pieces back, as far as neighbouring ones between the matches are joined.
-/

namespace Stencil.Text

deriving instance DecidableEq for Piece

variable {α : Type} {recognise : List Char → Option (Hit α)}

def joined (pieces : List (Piece α)) : List Char :=
  pieces.flatMap Piece.text

@[simp] theorem joined_nil : joined ([] : List (Piece α)) = [] := rfl

@[simp] theorem joined_plain (stretch : List Char) (pieces : List (Piece α)) :
    joined (.plain stretch :: pieces) = stretch ++ joined pieces := rfl

@[simp] theorem joined_hit (found : List Char) (value : α) (pieces : List (Piece α)) :
    joined (.hit found value :: pieces) = found ++ joined pieces := rfl

theorem joined_cutFrom (held text : List Char) :
    joined (cutFrom recognise held text) = held.reverse ++ text :=
  flatMap_text_cutFrom recognise held text

/-- No place of the stretch begins a match, as the text goes on behind it. -/
def Idle (recognise : List Char → Option (Hit α)) (stretch behind : List Char) : Prop :=
  ∀ tail, tail <:+ stretch → tail ≠ [] → recognise (tail ++ behind) = none

theorem Idle.of_suffix
    {stretch part behind : List Char} (hidle : Idle recognise stretch behind)
    (hpart : part <:+ stretch) : Idle recognise part behind :=
  fun tail htail => hidle tail (htail.trans hpart)

theorem Idle.of_append
    {front back behind : List Char} (hidle : Idle recognise (front ++ back) behind) :
    Idle recognise front (back ++ behind) := by
  intro tail htail hnonempty
  obtain ⟨before, rfl⟩ := htail
  have hsuffix : tail ++ back <:+ before ++ tail ++ back := by
    rw [List.append_assoc]
    exact List.suffix_append before (tail ++ back)
  rw [← List.append_assoc]
  exact hidle (tail ++ back) hsuffix (List.append_ne_nil_of_left_ne_nil hnonempty back)

theorem Idle.append
    {front back behind : List Char} (hfront : Idle recognise front (back ++ behind))
    (hback : Idle recognise back behind) : Idle recognise (front ++ back) behind := by
  rintro tail ⟨before, heq⟩ hnonempty
  rcases List.append_eq_append_iff.mp heq with ⟨left, rfl, rfl⟩ | ⟨left, rfl, rfl⟩
  · cases left with
    | nil => exact hback _ List.suffix_rfl hnonempty
    | cons c left =>
        rw [List.append_assoc]
        exact hfront _ (List.suffix_append before _) (List.cons_ne_nil _ _)
  · exact hback tail (List.suffix_append left tail) hnonempty

inductive Settled (recognise : List Char → Option (Hit α)) : List (Piece α) → Prop
  | nil : Settled recognise []
  | plain {stretch : List Char} {pieces : List (Piece α)}
      (hidle : Idle recognise stretch (joined pieces)) (hrest : Settled recognise pieces) :
      Settled recognise (.plain stretch :: pieces)
  | hit {found : List Char} {value : α} {pieces : List (Piece α)} (hnonempty : found ≠ [])
      (hfound : recognise (found ++ joined pieces) = some ⟨found.length, value⟩)
      (hrest : Settled recognise pieces) : Settled recognise (.hit found value :: pieces)

theorem Settled.recognise_of_mem
    {pieces : List (Piece α)} (hsettled : Settled recognise pieces) {found : List Char} {value : α}
    (hmem : .hit found value ∈ pieces) :
    found ≠ [] ∧ ∃ behind, recognise (found ++ behind) = some ⟨found.length, value⟩ := by
  induction hsettled with
  | nil => contradiction
  | plain _ _ ih =>
      rcases List.mem_cons.mp hmem with hhere | hlater
      · contradiction
      · exact ih hlater
  | @hit _ _ pieces hnonempty hfound _ ih =>
      rcases List.mem_cons.mp hmem with hhere | hlater
      · obtain ⟨rfl, rfl⟩ := Piece.hit.inj hhere
        exact ⟨hnonempty, joined pieces, hfound⟩
      · exact ih hlater

/-- Plain pieces and matches in turn, beginning and ending with a plain one. -/
inductive Alternates : List (Piece α) → Prop
  | last (stretch : List Char) : Alternates [.plain stretch]
  | next (stretch found : List Char) (value : α) {pieces : List (Piece α)}
      (hrest : Alternates pieces) : Alternates (.plain stretch :: .hit found value :: pieces)

/-! ## Cutting gives settled pieces -/

/-- A match takes at least one character, and no more than there are. -/
def Bounded (recognise : List Char → Option (Hit α)) : Prop :=
  ∀ text hit, recognise text = some hit → 0 < hit.width ∧ hit.width ≤ text.length

theorem Idle.concat
    {held rest : List Char} {c : Char} (hidle : Idle recognise held.reverse (c :: rest))
    (hc : recognise (c :: rest) = none) : Idle recognise (c :: held).reverse rest := by
  intro tail htail hnonempty
  obtain ⟨before, heq⟩ := htail
  rw [List.reverse_cons] at heq
  obtain rfl | ⟨front, d, rfl⟩ := tail.eq_nil_or_concat
  · contradiction
  · rw [List.concat_eq_append, ← List.append_assoc] at heq
    obtain ⟨hfront, hd⟩ := List.append_inj' heq rfl
    obtain rfl : d = c := List.singleton_injective hd
    rw [List.concat_eq_append, List.append_assoc, List.singleton_append]
    by_cases hempty : front = []
    · subst hempty
      exact hc
    · exact hidle front ⟨before, hfront⟩ hempty

theorem settled_cutFrom
    {held text : List Char} (hbounded : Bounded recognise)
    (hidle : Idle recognise held.reverse text) :
    Settled recognise (cutFrom recognise held text) := by
  fun_induction cutFrom recognise held text with
  | case1 held => exact .plain hidle .nil
  | case2 held c rest hnone ih => exact ih (hidle.concat hnone)
  | case3 held c rest hit hsome ih =>
      obtain ⟨hpositive, hshort⟩ := hbounded _ _ hsome
      have htext : c :: rest.take (hit.width - 1) ++ rest.drop (hit.width - 1) = c :: rest := by
        rw [List.cons_append, List.take_append_drop]
      have hlength : (c :: rest.take (hit.width - 1)).length = hit.width := by
        rw [List.length_cons] at hshort
        rw [List.length_cons, List.length_take]
        omega
      have hafter : joined (cutFrom recognise [] (rest.drop (hit.width - 1))) =
          rest.drop (hit.width - 1) := joined_cutFrom [] _
      refine .plain ?_ (.hit (List.cons_ne_nil _ _) ?_ (ih ?_))
      · rw [joined_hit, hafter, htext]
        exact hidle
      · rw [hafter, htext, hlength, hsome]
      · intro tail htail hnonempty
        exact absurd (List.suffix_nil.mp htail) hnonempty

theorem settled_cut (hbounded : Bounded recognise) (text : List Char) :
    Settled recognise (cut recognise text) := by
  apply settled_cutFrom hbounded
  intro tail htail hnonempty
  exact absurd (List.suffix_nil.mp htail) hnonempty

/-! ## Cutting gives settled pieces back -/

/-- The pieces with neighbouring plain ones joined; `held` is what stands before them, in
reverse. -/
def mergeFrom (held : List Char) : List (Piece α) → List (Piece α)
  | [] => [.plain held.reverse]
  | .plain stretch :: pieces => mergeFrom (stretch.reverse ++ held) pieces
  | .hit found value :: pieces => .plain held.reverse :: .hit found value :: mergeFrom [] pieces

theorem cutFrom_append_of_idle
    {stretch behind : List Char} (hidle : Idle recognise stretch behind) (held : List Char) :
    cutFrom recognise held (stretch ++ behind) =
      cutFrom recognise (stretch.reverse ++ held) behind := by
  induction stretch generalizing held with
  | nil => rfl
  | cons c stretch ih =>
      have hhere : recognise (c :: (stretch ++ behind)) = none :=
        hidle (c :: stretch) List.suffix_rfl (List.cons_ne_nil _ _)
      have hlater : Idle recognise stretch behind := hidle.of_suffix (List.suffix_cons c stretch)
      rw [List.cons_append, cutFrom, hhere]
      simp only
      rw [ih hlater, List.reverse_cons, List.append_assoc, List.singleton_append]

theorem Settled.cutFrom_joined
    {pieces : List (Piece α)} (hsettled : Settled recognise pieces) (held : List Char) :
    cutFrom recognise held (joined pieces) = mergeFrom held pieces := by
  induction hsettled generalizing held with
  | nil => rw [joined_nil, cutFrom, mergeFrom]
  | plain hidle hrest ih => rw [joined_plain, cutFrom_append_of_idle hidle, mergeFrom, ih]
  | @hit found value pieces hnonempty hfound hrest ih =>
      obtain ⟨c, later, rfl⟩ := List.exists_cons_of_ne_nil hnonempty
      rw [joined_hit, List.cons_append, cutFrom, ← List.cons_append, hfound, mergeFrom]
      simp only [List.length_cons, Nat.add_sub_cancel, List.take_left, List.drop_left, ih]

theorem Settled.cut_eq
    {pieces : List (Piece α)} (hsettled : Settled recognise pieces) :
    cut recognise (joined pieces) = mergeFrom [] pieces :=
  hsettled.cutFrom_joined []

/-- Nothing is found in a text exactly if no place of it begins a match. -/
theorem hits_eq_nil_iff {text : List Char} :
    hits recognise text = [] ↔ Idle recognise text [] := by
  constructor
  · intro hhits tail htail hnonempty
    rw [List.append_nil]
    exact recognise_eq_none_of_hits hhits htail hnonempty
  · intro hidle
    have hcut := cutFrom_append_of_idle hidle []
    rw [List.append_nil, List.append_nil, cutFrom] at hcut
    rw [hits, cut, hcut]
    rfl

theorem hit_mem_of_mem_mergeFrom
    {held found : List Char} {value : α} {pieces : List (Piece α)}
    (hmem : .hit found value ∈ mergeFrom held pieces) : .hit found value ∈ pieces := by
  fun_induction mergeFrom held pieces with
  | case1 held => simp at hmem
  | case2 held stretch pieces ih => exact List.mem_cons_of_mem _ (ih hmem)
  | case3 held other value' pieces ih =>
      rw [List.mem_cons, List.mem_cons] at hmem
      rcases hmem with hplain | hhere | hlater
      · contradiction
      · rw [hhere]
        exact List.mem_cons_self
      · exact List.mem_cons_of_mem _ (ih hlater)

theorem Alternates.mergeFrom_eq {pieces : List (Piece α)} (halternates : Alternates pieces) :
    mergeFrom [] pieces = pieces := by
  induction halternates with
  | last stretch => simp [mergeFrom]
  | next stretch found value hrest ih => simp [mergeFrom, ih]

theorem alternates_cutFrom (held text : List Char) :
    Alternates (cutFrom recognise held text) := by
  fun_induction cutFrom recognise held text with
  | case1 held => exact .last _
  | case2 held c rest _ ih => exact ih
  | case3 held c rest hit _ ih => exact .next _ _ _ ih

theorem alternates_cut (text : List Char) : Alternates (cut recognise text) :=
  alternates_cutFrom [] text

/-- Cutting takes apart what was joined. -/
theorem Settled.cut_joined
    {pieces : List (Piece α)} (hsettled : Settled recognise pieces)
    (halternates : Alternates pieces) : cut recognise (joined pieces) = pieces := by
  rw [hsettled.cut_eq, halternates.mergeFrom_eq]

/-! ## Cutting from the left -/

def prepend (front : List Char) : List (Piece α) → List (Piece α)
  | .plain stretch :: pieces => .plain (front ++ stretch) :: pieces
  | pieces => .plain front :: pieces

theorem prepend_prepend (front stretch : List Char) (pieces : List (Piece α)) :
    prepend front (prepend stretch pieces) = prepend (front ++ stretch) pieces := by
  rcases pieces with _ | ⟨_ | _, pieces⟩ <;> simp [prepend]

theorem exists_cut_eq_cons (recognise : List Char → Option (Hit α)) (text : List Char) :
    ∃ stretch pieces, cut recognise text = .plain stretch :: pieces ∧
      text = stretch ++ joined pieces := by
  have hjoined : joined (cut recognise text) = text := joined_cutFrom [] text
  have halternates : Alternates (cut recognise text) := alternates_cut text
  generalize cut recognise text = pieces at hjoined halternates
  cases halternates with
  | last stretch => exact ⟨stretch, [], rfl, hjoined.symm⟩
  | next stretch found value hrest => exact ⟨stretch, _, rfl, hjoined.symm⟩

theorem cutFrom_eq_prepend (held text : List Char) :
    cutFrom recognise held text = prepend held.reverse (cut recognise text) := by
  induction text generalizing held with
  | nil => simp [cut, cutFrom, prepend]
  | cons c rest ih =>
      rw [cut, cutFrom, cutFrom]
      cases recognise (c :: rest) with
      | none =>
          simp only
          rw [ih (c :: held), ih [c], prepend_prepend, List.reverse_cons]
          rfl
      | some hit => simp [prepend]

theorem cut_cons_of_none
    {c : Char} {rest : List Char} (hnone : recognise (c :: rest) = none) :
    cut recognise (c :: rest) = prepend [c] (cut recognise rest) := by
  rw [cut, cutFrom, hnone]
  exact cutFrom_eq_prepend [c] rest

theorem cut_append_of_idle
    {stretch behind : List Char} (hidle : Idle recognise stretch behind) :
    cut recognise (stretch ++ behind) = prepend stretch (cut recognise behind) := by
  rw [cut, cutFrom_append_of_idle hidle, List.append_nil, cutFrom_eq_prepend, List.reverse_reverse]

theorem cut_append_of_some
    {found behind : List Char} {value : α} (hnonempty : found ≠ [])
    (hsome : recognise (found ++ behind) = some ⟨found.length, value⟩) :
    cut recognise (found ++ behind) = .plain [] :: .hit found value :: cut recognise behind := by
  obtain ⟨c, later, rfl⟩ := List.exists_cons_of_ne_nil hnonempty
  rw [cut, List.cons_append, cutFrom, ← List.cons_append, hsome]
  simp only [List.length_cons, Nat.add_sub_cancel, List.take_left, List.drop_left]
  rfl

/-! ## Removing and substituting from the left -/

variable {replace : List Char → α → List Char}

theorem flatMap_cutFrom {act : Piece α → List Char} (hplain : ∀ text, act (.plain text) = text)
    (held text : List Char) :
    (cutFrom recognise held text).flatMap act =
      held.reverse ++ (cutFrom recognise [] text).flatMap act := by
  induction text generalizing held with
  | nil => simp [cutFrom, hplain]
  | cons c rest ih =>
      rw [cutFrom, cutFrom]
      cases recognise (c :: rest) with
      | none =>
          simp only
          rw [ih (c :: held), ih [c]]
          simp
      | some hit => simp [hplain]

theorem remove_append_of_idle
    {stretch behind : List Char} (hidle : Idle recognise stretch behind) :
    remove recognise (stretch ++ behind) = stretch ++ remove recognise behind := by
  rw [remove, cut, cutFrom_append_of_idle hidle, List.append_nil, flatMap_cutFrom fun _ => rfl,
    List.reverse_reverse]
  rfl

theorem substitute_nil : substitute recognise replace [] = [] := by
  simp [substitute, cut, cutFrom]

theorem substitute_cons_of_none
    {c : Char} {rest : List Char} (hnone : recognise (c :: rest) = none) :
    substitute recognise replace (c :: rest) = c :: substitute recognise replace rest := by
  rw [substitute, cut, cutFrom, hnone]
  exact flatMap_cutFrom (fun _ => rfl) [c] rest

theorem substitute_append_of_some
    {found behind : List Char} {value : α} (hnonempty : found ≠ [])
    (hsome : recognise (found ++ behind) = some ⟨found.length, value⟩) :
    substitute recognise replace (found ++ behind) =
      replace found value ++ substitute recognise replace behind := by
  obtain ⟨c, later, rfl⟩ := List.exists_cons_of_ne_nil hnonempty
  rw [substitute, cut, List.cons_append, cutFrom, ← List.cons_append, hsome]
  simp only [List.length_cons, Nat.add_sub_cancel, List.take_left, List.drop_left]
  rfl

end Stencil.Text
