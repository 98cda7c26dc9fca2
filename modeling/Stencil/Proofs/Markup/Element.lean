import Stencil.Proofs.Markup.Blanks

/-!
# Elements that are kept

An element is recognised by its own text, whatever follows it.  It begins and ends with an angle
bracket, so a reader that has gone through it does not notice blanks behind it.
-/

namespace Stencil.Markup

open Stencil.Text

def IsElement (found : List Char) : Prop :=
  ∃ rest, found = '<' :: rest ∧ (Reader.name []).width? rest = some rest.length

theorem isElement_of_verbatimElement?
    {found behind : List Char} {value : Unit} (hnonempty : found ≠ [])
    (hfound : verbatimElement? (found ++ behind) = some ⟨found.length, value⟩) :
    IsElement found := by
  obtain ⟨c, rest, rfl⟩ := List.exists_cons_of_ne_nil hnonempty
  by_cases hc : c = '<'
  · subst hc
    rw [List.cons_append, verbatimElement?_bracket, Option.map_eq_some_iff] at hfound
    obtain ⟨width, hwidth, heq⟩ := hfound
    obtain rfl : width = rest.length := by simpa using congrArg Hit.width heq
    have halone := Reader.width?_append hwidth []
    rw [List.append_nil] at halone
    exact ⟨rest, rfl, halone⟩
  · rw [List.cons_append, verbatimElement?_other hc] at hfound
    contradiction

theorem IsElement.verbatimElement?_append
    {found : List Char} (helement : IsElement found) (behind : List Char) :
    verbatimElement? (found ++ behind) = some ⟨found.length, ()⟩ := by
  obtain ⟨rest, rfl, hwidth⟩ := helement
  have halone : (Reader.name []).width? (rest ++ []) = some rest.length := by
    rwa [List.append_nil]
  have hbehind : (Reader.name []).width? (rest ++ behind) = some rest.length :=
    Reader.width?_append halone behind
  rw [List.cons_append, verbatimElement?_bracket, hbehind]
  rfl

theorem IsElement.exists_eq {found : List Char} (helement : IsElement found) :
    ∃ inner, found = '<' :: (inner ++ ['>']) := by
  obtain ⟨rest, rfl, hwidth⟩ := helement
  obtain ⟨inner, rfl⟩ := Reader.exists_concat_of_width? (fun heq => by contradiction) hwidth
  exact ⟨inner, rfl⟩

theorem IsElement.ne_nil {found : List Char} (helement : IsElement found) : found ≠ [] := by
  obtain ⟨rest, rfl, -⟩ := helement
  exact List.cons_ne_nil _ _

theorem IsElement.noBlankFirst_append
    {found : List Char} (helement : IsElement found) (behind : List Char) :
    NoBlankFirst (found ++ behind) := by
  obtain ⟨rest, rfl, -⟩ := helement
  exact noBlankFirst_cons rfl

theorem IsElement.noBlankFirst_reverse
    {found : List Char} (helement : IsElement found) (before : List Char) :
    NoBlankFirst (before ++ found).reverse := by
  obtain ⟨inner, rfl⟩ := helement.exists_eq
  rw [List.reverse_append, List.reverse_cons, List.reverse_append]
  exact noBlankFirst_cons rfl

theorem IsElement.atRest_read
    {found : List Char} (helement : IsElement found) (reader : Reader) :
    (reader.read found).AtRest := by
  obtain ⟨inner, rfl⟩ := helement.exists_eq
  rw [← List.cons_append, Reader.read_append]
  exact Reader.atRest_step _

theorem bounded_verbatimElement? : Bounded verbatimElement? := by
  intro text hit hfound
  cases text with
  | nil => contradiction
  | cons c rest =>
      by_cases hc : c = '<'
      · subst hc
        rw [verbatimElement?_bracket, Option.map_eq_some_iff] at hfound
        obtain ⟨width, hwidth, rfl⟩ := hfound
        exact ⟨Nat.succ_pos _, Nat.succ_le_succ (Reader.width?_le hwidth)⟩
      · rw [verbatimElement?_other hc] at hfound
        contradiction

theorem verbatimElement?_eq_none_iff {text : List Char} :
    verbatimElement? ('<' :: text) = none ↔ (Reader.name []).read text ≠ .closed := by
  rw [verbatimElement?_bracket, ← Option.not_isSome_iff_eq_none, Option.isSome_map,
    Reader.isSome_width?_iff]

end Stencil.Markup
