import Stencil.Proofs.Markup.Written
import Stencil.Proofs.Text.Apart

/-!
# Markup without comments

A document without comments is written element by element.  Between the elements its visible
characters are kept, with a space where blanks stood, unless a tag ends before them or begins behind
them.
-/

namespace Stencil.Markup

open Stencil.Text

def commentMark : List Char :=
  "<!--".toList

/-- An element as it is, or a stretch between elements with single spaces. -/
def spacedPiece : Piece Unit → List Char
  | .plain stretch => spaced (mayPart closesTag opensTag) stretch
  | .hit element _ => element

theorem hits_comment?_eq_nil {text : List Char} (hcomment : ¬ commentMark <:+: text) :
    hits comment? text = [] := by
  rw [hits_eq_nil_iff]
  intro tail htail _
  rw [List.append_nil, ← Option.not_isSome_iff_eq_none, isSome_comment?_iff]
  rintro ⟨rest, rfl, -⟩
  have hmark : commentMark <+: ['<', '!', '-', '-'] ++ rest := List.prefix_append _ _
  exact hcomment (hmark.isInfix.trans htail.isInfix)

/-- Without comments a stretch is written the same way whether an element stands before it or
not. -/
theorem writtenStretch_eq_spaced
    {stretch : List Char} (hhits : hits comment? stretch = []) (first : Bool) :
    writtenStretch first stretch = spaced (mayPart closesTag opensTag) stretch := by
  have hidle : Idle comment? stretch [] := hits_eq_nil_iff.mp hhits
  have htighten {text : List Char} (htext : text <:+ stretch) :
      tighten text = tidy closesTag opensTag text := by
    rw [tighten_eq, remove_eq_self_of_hits (hits_eq_nil_iff.mpr (hidle.of_suffix htext))]
  cases first with
  | true => rw [writtenStretch, if_pos rfl, htighten List.suffix_rfl, trim_tidy rfl]
  | false =>
      rw [writtenStretch, if_neg Bool.false_ne_true, htighten (skipBlanks_suffix stretch),
        trimEnd_tidy rfl (noBlankFirst_skipBlanks stretch), spaced_skipBlanks]

theorem joined_writtenPieces_eq_flatMap
    {pieces : List (Piece Unit)}
    (hhits : ∀ stretch, .plain stretch ∈ pieces → hits comment? stretch = []) (first : Bool) :
    joined (writtenPieces first pieces) = pieces.flatMap spacedPiece := by
  induction pieces generalizing first with
  | nil => rfl
  | cons piece pieces ih =>
      have hlater := ih fun stretch hmem => hhits stretch (List.mem_cons_of_mem _ hmem)
      cases piece with
      | plain stretch =>
          rw [writtenPieces, joined_plain, hlater,
            writtenStretch_eq_spaced (hhits stretch List.mem_cons_self)]
          rfl
      | hit element value =>
          rw [writtenPieces, joined_hit, hlater]
          rfl

theorem isInfix_of_mem_cut
    {document : List Char} {piece : Piece Unit} (hmem : piece ∈ cut verbatimElement? document) :
    piece.text <:+: document := by
  have hjoined := flatMap_text_cut verbatimElement? document
  nth_rewrite 1 [← hjoined]
  exact List.infix_of_mem_flatten (List.mem_map_of_mem hmem)

/-- A document without comments keeps its elements, and the visible characters of each stretch with
one space between two of them if blanks stood there and no tag ends before them or begins behind
them; no blank is left at the ends of a stretch. -/
theorem minify_eq_flatMap_spaced (document : List Char) (hcomment : ¬ commentMark <:+: document) :
    minify document = (cut verbatimElement? document).flatMap spacedPiece ∧
      ∀ stretch, .plain stretch ∈ cut verbatimElement? document →
        (spacedPiece (.plain stretch)).filter (!isBlank ·) = stretch.filter (!isBlank ·) ∧
          trim (spacedPiece (.plain stretch)) = spacedPiece (.plain stretch) := by
  refine ⟨?_, fun stretch _ => ⟨filter_spaced _ stretch, ?_⟩⟩
  · rw [minify_eq]
    refine joined_writtenPieces_eq_flatMap (fun stretch hmem => ?_) true
    exact hits_comment?_eq_nil fun hmark => hcomment (hmark.trans (isInfix_of_mem_cut hmem))
  · rw [spacedPiece, ← trim_tidy rfl, trim_trim]

theorem minify_eq_flatMap_spaced_of_elements :
    ¬ commentMark <:+: " <p> a  b </p>\n<pre> c\n </pre> d > e <script>1  </script>\n".toList ∧
      minify " <p> a  b </p>\n<pre> c\n </pre> d > e <script>1  </script>\n".toList =
        (cut verbatimElement?
          " <p> a  b </p>\n<pre> c\n </pre> d > e <script>1  </script>\n".toList).flatMap
            spacedPiece :=
  have hcomment : ¬ commentMark <:+:
      " <p> a  b </p>\n<pre> c\n </pre> d > e <script>1  </script>\n".toList := by
    rw [← isSome_indexOf?_iff]
    decide +kernel
  ⟨hcomment, (minify_eq_flatMap_spaced _ hcomment).1⟩

end Stencil.Markup
