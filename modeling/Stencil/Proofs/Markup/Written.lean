import Stencil.Proofs.Markup.Comment
import Stencil.Proofs.Markup.Element

/-!
# A document as it is written

Minifying writes the elements of a document and tidied stretches between them.  Tidying blanks
neither makes nor breaks an element, so the small form is cut at the elements of the document if
removing the comments makes none either.
-/

namespace Stencil.Markup

open Stencil.Text

/-! ## Stretches and pieces -/

/-- The stretch as it is written: its ends touch elements or the ends of the document. -/
def writtenStretch (first : Bool) (stretch : List Char) : List Char :=
  if first then trim (tighten stretch) else trimEnd (tighten (skipBlanks stretch))

/-- `first` says that no element has come yet. -/
def writtenPieces (first : Bool) : List (Piece Unit) → List (Piece Unit)
  | [] => []
  | .plain stretch :: rest => .plain (writtenStretch first stretch) :: writtenPieces first rest
  | .hit element value :: rest => .hit element value :: writtenPieces false rest

/-- The matches are elements. -/
def HoldElements (pieces : List (Piece Unit)) : Prop :=
  ∀ found value, .hit found value ∈ pieces → IsElement found

theorem holdElements_cut (document : List Char) :
    HoldElements (cut verbatimElement? document) := by
  intro found value hmem
  have hsettled := settled_cut bounded_verbatimElement? document
  obtain ⟨hnonempty, behind, hfound⟩ := hsettled.recognise_of_mem hmem
  exact isElement_of_verbatimElement? hnonempty hfound

theorem HoldElements.next
    {stretch found : List Char} {value : Unit} {pieces : List (Piece Unit)}
    (helements : HoldElements (.plain stretch :: .hit found value :: pieces)) :
    IsElement found ∧ HoldElements pieces :=
  ⟨helements found value (List.mem_cons_of_mem _ List.mem_cons_self), fun found' value' hmem =>
    helements found' value' (List.mem_cons_of_mem _ (List.mem_cons_of_mem _ hmem))⟩

variable {pieces : List (Piece Unit)}

theorem trimEnd_tightenPieces
    (halternates : Alternates pieces) (helements : HoldElements pieces) :
    trimEnd (tightenPieces true pieces) = joined (writtenPieces false pieces) := by
  induction halternates with
  | last stretch => simp [tightenPieces, writtenPieces, writtenStretch]
  | next stretch found value hrest ih =>
      obtain ⟨helement, hlater⟩ := helements.next
      have hlast := helement.noBlankFirst_reverse (trimEnd (tighten (skipBlanks stretch)))
      simp only [tightenPieces, writtenPieces, joined_plain, joined_hit, if_true,
        List.isEmpty_cons, Bool.false_eq_true, if_false, writtenStretch]
      rw [← List.append_assoc, trimEnd_append_of_noBlankFirst_reverse hlast, ih hlater,
        List.append_assoc]

theorem trim_tightenPieces
    (halternates : Alternates pieces) (helements : HoldElements pieces) :
    trim (tightenPieces false pieces) = joined (writtenPieces true pieces) := by
  cases halternates with
  | last stretch => simp [tightenPieces, writtenPieces, writtenStretch]
  | next stretch found value hrest =>
      obtain ⟨helement, hlater⟩ := helements.next
      have hfirst := helement.noBlankFirst_append (tightenPieces true ‹_›)
      have hlast := helement.noBlankFirst_reverse (trim (tighten stretch))
      simp only [tightenPieces, writtenPieces, joined_plain, joined_hit, if_true,
        List.isEmpty_cons, Bool.false_eq_true, if_false, writtenStretch]
      rw [trim, skipBlanks_append_of_noBlankFirst hfirst, skipBlanks_trimEnd, ← List.append_assoc,
        trimEnd_append_of_noBlankFirst_reverse hlast, trimEnd_tightenPieces hrest hlater,
        List.append_assoc]

theorem minify_eq (document : List Char) :
    minify document = joined (writtenPieces true (cut verbatimElement? document)) :=
  trim_tightenPieces (alternates_cut document) (holdElements_cut document)

theorem alternates_writtenPieces (halternates : Alternates pieces) (first : Bool) :
    Alternates (writtenPieces first pieces) := by
  induction halternates generalizing first with
  | last stretch => exact .last _
  | next stretch found value hrest ih => exact .next _ _ _ (ih false)

/-! ## Where a bracket of a written stretch comes from -/

theorem exists_writtenStretch_false (stretch : List Char) :
    ∃ gap, AllBlank gap ∧ writtenStretch false stretch ++ gap =
      tidy closesTag opensTag (remove comment? (skipBlanks stretch)) := by
  obtain ⟨gap, hgap, htidy⟩ := exists_eq_trimEnd_append (tighten (skipBlanks stretch))
  exact ⟨gap, hgap, htidy.symm⟩

/-- A bracket of the written stretch is one of the stretch, and behind it the tidied stretch has
been written as far as to blanks. -/
theorem exists_suffix_of_writtenStretch
    {first : Bool} {stretch tail' : List Char}
    (htail : '<' :: tail' <:+ writtenStretch first stretch) :
    ∃ tail gap, AllBlank gap ∧ '<' :: tail <:+ remove comment? stretch ∧
      tail' ++ gap = tidy closesTag opensTag tail := by
  obtain ⟨rest, hrest, gap, hgap, hwritten⟩ :
      ∃ rest, rest <:+ remove comment? stretch ∧ ∃ gap, AllBlank gap ∧
        writtenStretch first stretch ++ gap <:+ tidy closesTag opensTag rest := by
    cases first with
    | false =>
        obtain ⟨lead, -, hremove⟩ := exists_remove_skipBlanks stretch
        obtain ⟨gap, hgap, hwritten⟩ := exists_writtenStretch_false stretch
        exact ⟨_, ⟨lead, hremove.symm⟩, gap, hgap, hwritten ▸ List.suffix_rfl⟩
    | true =>
        obtain ⟨gap, hgap, hskipped⟩ := exists_eq_trimEnd_append (skipBlanks (tighten stretch))
        refine ⟨_, List.suffix_rfl, gap, hgap, ?_⟩
        have hwritten : writtenStretch true stretch ++ gap = skipBlanks (tighten stretch) :=
          hskipped.symm
        rw [hwritten, ← tighten_eq]
        exact skipBlanks_suffix _
  have hsuffix : '<' :: (tail' ++ gap) <:+ tidy closesTag opensTag rest := by
    obtain ⟨before, hbefore⟩ := htail
    refine List.IsSuffix.trans ⟨before, ?_⟩ hwritten
    rw [← hbefore, List.append_assoc, List.cons_append]
  obtain ⟨tail, htail', heq⟩ := exists_suffix_of_tidy rfl rfl hsuffix
  exact ⟨tail, gap, hgap, htail'.trans hrest, heq⟩

/-! ## Elements are found again -/

/-- The piece without the comments of a stretch. -/
def withoutComments : Piece Unit → Piece Unit
  | .plain stretch => .plain (remove comment? stretch)
  | .hit element value => .hit element value

/-- Where the second text closes a reader, the first one closes it too, also behind blanks. -/
def Closes (before after : List Char) : Prop :=
  ∀ (reader : Reader) (gap : List Char), AllBlank gap → reader.read after = .closed →
    (reader.read gap).read before = .closed

theorem closes_nil : Closes [] [] := by
  intro reader gap hgap hclosed
  rw [Reader.read_nil] at hclosed
  rw [hclosed, Reader.read_closed, Reader.read_nil]

theorem IsElement.closes_append
    {found : List Char} (helement : IsElement found) {before after : List Char}
    (hlater : ∀ reader : Reader, reader.AtRest → reader.read after = .closed →
      reader.read before = .closed) : Closes (found ++ before) (found ++ after) := by
  intro reader gap hgap hclosed
  have hrest := helement.atRest_read reader
  have hread : (reader.read gap).read found = reader.read found := by
    obtain ⟨inner, rfl⟩ := helement.exists_eq
    rw [← Reader.read_append, Reader.read_blanks_bracket reader hgap]
  rw [Reader.read_append] at hclosed
  rw [Reader.read_append, hread]
  exact hlater _ hrest hclosed

theorem Closes.idle
    {first : Bool} {stretch before after : List Char} (hcloses : Closes before after)
    (hidle : Idle verbatimElement? (remove comment? stretch) before) :
    Idle verbatimElement? (writtenStretch first stretch) after := by
  intro tail' htail' hnonempty
  obtain ⟨c, tail', rfl⟩ := List.exists_cons_of_ne_nil hnonempty
  by_cases hc : c = '<'
  · subst hc
    obtain ⟨tail, gap, hgap, htail, heq⟩ := exists_suffix_of_writtenStretch htail'
    have hnone := hidle ('<' :: tail) htail (List.cons_ne_nil _ _)
    rw [List.cons_append, verbatimElement?_eq_none_iff] at hnone ⊢
    intro hclosed
    apply hnone
    rw [Reader.read_append] at hclosed
    have hread : ((Reader.name []).read tail').read gap = (Reader.name []).read tail := by
      rw [← Reader.read_append, heq, Reader.read_tidy]
    have hbefore := hcloses _ gap hgap hclosed
    rwa [hread, ← Reader.read_append] at hbefore
  · exact verbatimElement?_other hc _

theorem closed_of_writtenPieces
    (halternates : Alternates pieces) (helements : HoldElements pieces)
    {reader : Reader} (hrest : reader.AtRest)
    (hclosed : reader.read (joined (writtenPieces false pieces)) = .closed) :
    reader.read (joined (pieces.map withoutComments)) = .closed := by
  have hstretch (reader : Reader) (hrest : reader.AtRest) (stretch : List Char) :
      ∃ gap, AllBlank gap ∧
        (reader.read (writtenStretch false stretch)).read gap =
          reader.read (remove comment? stretch) := by
    obtain ⟨lead, hlead, hremove⟩ := exists_remove_skipBlanks stretch
    obtain ⟨gap, hgap, hwritten⟩ := exists_writtenStretch_false stretch
    refine ⟨gap, hgap, ?_⟩
    rw [hremove, hrest.read_blanks hlead, ← Reader.read_append, hwritten, Reader.read_tidy]
  induction halternates generalizing reader with
  | last stretch =>
      obtain ⟨gap, hgap, hread⟩ := hstretch reader hrest stretch
      simp only [writtenPieces, List.map_cons, List.map_nil, withoutComments, joined_plain,
        joined_nil, List.append_nil] at hclosed ⊢
      rw [← hread, hclosed, Reader.read_closed]
  | next stretch found value hlater ih =>
      obtain ⟨helement, hothers⟩ := helements.next
      obtain ⟨gap, hgap, hread⟩ := hstretch reader hrest stretch
      have hcloses := helement.closes_append fun reader hrest => ih hothers hrest
      simp only [writtenPieces, List.map_cons, withoutComments, joined_plain,
        joined_hit] at hclosed ⊢
      rw [Reader.read_append] at hclosed
      have hfound := hcloses _ gap hgap hclosed
      rwa [hread, ← Reader.read_append] at hfound

theorem settled_writtenPieces
    (halternates : Alternates pieces) (helements : HoldElements pieces)
    (hsettled : Settled verbatimElement? (pieces.map withoutComments)) (first : Bool) :
    Settled verbatimElement? (writtenPieces first pieces) := by
  induction halternates generalizing first with
  | last stretch =>
      cases hsettled with
      | plain hidle _ => exact .plain (closes_nil.idle hidle) .nil
  | next stretch found value hlater ih =>
      obtain ⟨helement, hothers⟩ := helements.next
      have hcloses := helement.closes_append fun reader hrest =>
        closed_of_writtenPieces hlater hothers hrest
      cases hsettled with
      | plain hidle hrest =>
          cases hrest with
          | hit _ _ hrest =>
              exact .plain (hcloses.idle hidle) (.hit helement.ne_nil
                (helement.verbatimElement?_append _) (ih hothers hrest false))

/-- The stretches and elements of a document, without the comments of the stretches. -/
def uncommented (document : List Char) : List (Piece Unit) :=
  (cut verbatimElement? document).map withoutComments

theorem cut_minify
    {document : List Char}
    (hfound : cut verbatimElement? (joined (uncommented document)) = uncommented document) :
    cut verbatimElement? (minify document) =
      writtenPieces true (cut verbatimElement? document) := by
  have halternates : Alternates (cut verbatimElement? document) := alternates_cut document
  have hsettled : Settled verbatimElement? (uncommented document) :=
    hfound ▸ settled_cut bounded_verbatimElement? _
  have hwritten :=
    settled_writtenPieces halternates (holdElements_cut document) hsettled true
  rw [minify_eq]
  exact hwritten.cut_joined (alternates_writtenPieces halternates true)

end Stencil.Markup
