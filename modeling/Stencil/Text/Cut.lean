/-!
# Cutting a text at its matches

A recogniser looks at the head of a text and answers how wide the match is that begins there.
`cut` takes the successive leftmost matches and keeps what lies between them, so that the pieces
joined together are the text again.
-/

namespace Stencil.Text

/-- A match at the head of a text.  A match takes at least one character, whatever its width. -/
structure Hit (α : Type) where
  width : Nat
  value : α

/-- A piece of a text that was cut at its matches. -/
inductive Piece (α : Type) where
  | plain (text : List Char)
  | hit (text : List Char) (value : α)

def Piece.text {α : Type} : Piece α → List Char
  | .plain text => text
  | .hit text _ => text

/-- Walk along the text; `held` is what lies before it since the last match, in reverse. -/
def cutFrom {α : Type} (recognise : List Char → Option (Hit α)) (held text : List Char) :
    List (Piece α) :=
  match text with
  | [] => [.plain held.reverse]
  | c :: rest =>
    match recognise (c :: rest) with
    | none => cutFrom recognise (c :: held) rest
    | some hit =>
      -- One character at least is taken, so that the rest gets shorter.
      .plain held.reverse :: .hit (c :: rest.take (hit.width - 1)) hit.value ::
        cutFrom recognise [] (rest.drop (hit.width - 1))
termination_by text.length

/-- The pieces of a text, beginning and ending with a plain one, plain ones and matches in turn. -/
def cut {α : Type} (recognise : List Char → Option (Hit α)) (text : List Char) :
    List (Piece α) :=
  cutFrom recognise [] text

theorem flatMap_text_cutFrom {α : Type} (recognise : List Char → Option (Hit α))
    (held text : List Char) :
    (cutFrom recognise held text).flatMap Piece.text = held.reverse ++ text := by
  fun_induction cutFrom recognise held text with
  | case1 held => simp [Piece.text]
  | case2 held c rest _ ih => simp [ih]
  | case3 held c rest hit _ ih => simp [Piece.text, ih]

/-- Cutting loses nothing. -/
theorem flatMap_text_cut {α : Type} (recognise : List Char → Option (Hit α))
    (text : List Char) : (cut recognise text).flatMap Piece.text = text := by
  simp [cut, flatMap_text_cutFrom]

/-- The text with something else in the place of every match. -/
def substitute {α : Type} (recognise : List Char → Option (Hit α))
    (replace : List Char → α → List Char) (text : List Char) : List Char :=
  (cut recognise text).flatMap fun
    | .plain kept => kept
    | .hit found value => replace found value

/-- Put texts in the places of the matches, one after the other; each may take some effort. -/
def fill {m : Type → Type} [Monad m] {α : Type} (replace : α → m (List Char)) :
    List (Piece α) → m (List Char)
  | [] => return []
  | .plain text :: rest => do
    let others ← fill replace rest
    return text ++ others
  | .hit _ value :: rest => do
    let replacement ← replace value
    let others ← fill replace rest
    return replacement ++ others

def Piece.found? {α : Type} : Piece α → Option (List Char)
  | .plain _ => none
  | .hit found _ => some found

def hits {α : Type} (recognise : List Char → Option (Hit α)) (text : List Char) :
    List (List Char) :=
  (cut recognise text).filterMap Piece.found?

/-- What a piece holds outside of matches. -/
def Piece.kept {α : Type} : Piece α → List Char
  | .plain text => text
  | .hit _ _ => []

def remove {α : Type} (recognise : List Char → Option (Hit α)) (text : List Char) : List Char :=
  (cut recognise text).flatMap Piece.kept

theorem ne_nil_of_mem_filterMap_cutFrom {α : Type} {recognise : List Char → Option (Hit α)}
    {held text found : List Char}
    (hfound : found ∈ (cutFrom recognise held text).filterMap Piece.found?) : found ≠ [] := by
  fun_induction cutFrom recognise held text with
  | case1 held => simp [Piece.found?] at hfound
  | case2 held c rest _ ih => exact ih hfound
  | case3 held c rest hit _ ih =>
    simp only [List.filterMap_cons, Piece.found?, List.mem_cons] at hfound
    rcases hfound with rfl | hlater
    · simp
    · exact ih hlater

/-- A match is never empty. -/
theorem ne_nil_of_mem_hits {α : Type} {recognise : List Char → Option (Hit α)}
    {text found : List Char} (hfound : found ∈ hits recognise text) : found ≠ [] :=
  ne_nil_of_mem_filterMap_cutFrom hfound

theorem length_remove_pieces {α : Type} (pieces : List (Piece α)) :
    (pieces.flatMap Piece.kept).length + (pieces.filterMap Piece.found?).flatten.length =
      (pieces.flatMap Piece.text).length := by
  induction pieces with
  | nil => rfl
  | cons piece rest ih =>
    cases piece with
    | plain text =>
      have hfound : Piece.found? (Piece.plain text : Piece α) = none := rfl
      rw [List.filterMap_cons_none hfound, List.flatMap_cons, List.flatMap_cons,
        List.length_append, List.length_append, ← ih]
      simp only [Piece.kept, Piece.text]
      omega
    | hit text value =>
      have hfound : Piece.found? (Piece.hit text value) = some text := rfl
      rw [List.filterMap_cons_some hfound, List.flatMap_cons, List.flatMap_cons,
        List.length_append, List.length_append, ← ih, List.flatten_cons, List.length_append]
      simp only [Piece.kept, Piece.text, List.length_nil]
      omega

/-- What is removed and what is left make up the length of the text. -/
theorem length_remove_add_hits {α : Type} (recognise : List Char → Option (Hit α))
    (text : List Char) :
    (remove recognise text).length + (hits recognise text).flatten.length = text.length := by
  have hpieces := length_remove_pieces (cut recognise text)
  rw [flatMap_text_cut] at hpieces
  exact hpieces

/-- Removing a match makes the text shorter. -/
theorem length_remove_lt {α : Type} {recognise : List Char → Option (Hit α)}
    {text : List Char} (hhits : hits recognise text ≠ []) :
    (remove recognise text).length < text.length := by
  have hlengths := length_remove_add_hits recognise text
  obtain ⟨found, later, hcons⟩ := List.exists_cons_of_ne_nil hhits
  have hfound : found ≠ [] := ne_nil_of_mem_hits (by rw [hcons]; exact List.mem_cons_self)
  have hlength := List.length_pos_iff.mpr hfound
  rw [hcons, List.flatten_cons, List.length_append] at hlengths
  omega

end Stencil.Text
