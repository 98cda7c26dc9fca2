import Stencil.Proofs.Script.Reading
import Stencil.Proofs.Text.Search

/-!
# How a script falls into pieces

Each piece of a script is a token, a run of blanks or a comment, and the text behind it shows that
it ends there: a run of blanks is not followed by a blank, a line comment only by a line feed, and
a block comment ends with the first closing mark behind its opening one.  A script falls into such
pieces in one way only.
-/

namespace Stencil.Script

open Stencil.Text

variable {last : Option Token} {piece : Piece} {text behind : List Char} {found : List Piece}

/-! ## The piece at a place -/

/-- The piece has the form of its kind and ends where the text behind it begins; `last` is the token
before it. -/
inductive Piece.Fits (last : Option Token) : Piece → List Char → Prop
  | token {token : Token} {behind : List Char} (hreads : Reads last token behind) :
      Fits last (.token token) behind
  | blank {text behind : List Char} (htext : AllBlank text) (hbehind : NoBlankFirst behind) :
      Fits last (.blank text) behind
  | lineComment {body behind : List Char} (hbody : '\n' ∉ body)
      (hbehind : ∀ c ∈ behind.head?, c = '\n') :
      Fits last (.lineComment ('/' :: '/' :: body)) behind
  | blockComment {body behind : List Char} (hbody : ¬ ['*', '/'] <:+: body ++ ['*']) :
      Fits last (.blockComment ('/' :: '*' :: (body ++ ['*', '/']))) behind
  | unclosed {body : List Char} (hbody : ¬ ['*', '/'] <:+: body) :
      Fits last (.blockComment ('/' :: '*' :: body)) []

theorem lineWidth_append
    {body behind : List Char} (hbody : '\n' ∉ body) (hbehind : ∀ c ∈ behind.head?, c = '\n') :
    lineWidth (body ++ behind) = body.length := by
  have hplain : ∀ c ∈ body, (c != '\n') = true := by
    intro c hc
    rw [bne_iff_ne]
    rintro rfl
    exact hbody hc
  rw [lineWidth, List.takeWhile_append_of_pos hplain]
  cases behind with
  | nil => simp
  | cons c rest =>
      obtain rfl : c = '\n' := hbehind c rfl
      simp

theorem blockWidth_append {body : List Char} (hbody : ¬ ['*', '/'] <:+: body ++ ['*'])
    (behind : List Char) : blockWidth (body ++ (['*', '/'] ++ behind)) = body.length + 2 := by
  have hfirst : ¬ ['*', '/'] <:+: body ++ ['*', '/'].dropLast := hbody
  rw [blockWidth, indexOf?_append_of_first hfirst]

theorem blockWidth_of_unclosed {body : List Char} (hbody : ¬ ['*', '/'] <:+: body) :
    blockWidth body = body.length := by
  have hnone : indexOf? ['*', '/'] body = none := by
    rw [← Option.not_isSome_iff_eq_none, isSome_indexOf?_iff]
    exact hbody
  rw [blockWidth, hnone]

theorem shapeAt_blank {c : Char} (hblank : isBlank c) (last : Option Token) (rest : List Char) :
    shapeAt last c rest = (.blank, blankWidth rest) :=
  if_pos hblank

theorem shapeAt_lineComment (last : Option Token) (rest : List Char) :
    shapeAt last '/' ('/' :: rest) = (.lineComment, lineWidth ('/' :: rest)) := rfl

theorem shapeAt_blockComment (last : Option Token) (rest : List Char) :
    shapeAt last '/' ('*' :: rest) = (.blockComment, 1 + blockWidth rest) := rfl

/-- A piece that fits is the one that is cut off at its place. -/
theorem Piece.Fits.shapeAt_eq
    {c : Char} {body : List Char} (hfits : piece.Fits last behind)
    (htext : piece.text = c :: body) :
    ∃ make, shapeAt last c (body ++ behind) = (make, body.length) ∧ make (c :: body) = piece := by
  cases hfits with
  | @token token _ hreads =>
      obtain ⟨kind, text⟩ := token
      obtain rfl : text = c :: body := htext
      exact ⟨_, hreads.shapeAt_eq, rfl⟩
  | blank hblanks hbehind =>
      obtain rfl : _ = c :: body := htext
      obtain ⟨hc, hbody⟩ := List.forall_mem_cons.mp hblanks
      exact ⟨.blank, by rw [shapeAt_blank hc, blankWidth_append hbody hbehind], rfl⟩
  | @lineComment inner _ hbody hbehind =>
      obtain ⟨rfl, rfl⟩ := List.cons.inj htext
      have hline : '\n' ∉ '/' :: inner := List.not_mem_cons_of_ne_of_not_mem (by decide) hbody
      refine ⟨.lineComment, ?_, rfl⟩
      rw [List.cons_append, shapeAt_lineComment, ← List.cons_append,
        lineWidth_append hline hbehind]
  | @blockComment inner _ hbody =>
      obtain ⟨rfl, rfl⟩ := List.cons.inj htext
      refine ⟨.blockComment, ?_, rfl⟩
      rw [List.cons_append, List.append_assoc, shapeAt_blockComment, blockWidth_append hbody,
        List.length_cons, List.length_append, Nat.add_comm]
      rfl
  | unclosed hbody =>
      obtain ⟨rfl, rfl⟩ := List.cons.inj htext
      refine ⟨.blockComment, ?_, rfl⟩
      rw [List.append_nil, shapeAt_blockComment, blockWidth_of_unclosed hbody, List.length_cons,
        Nat.add_comm]

theorem exists_fits_lineComment (last : Option Token) (rest : List Char) :
    ∃ (piece : Piece) (behind : List Char), '/' :: '/' :: rest = piece.text ++ behind ∧
      piece.text ≠ [] ∧ piece.Fits last behind := by
  refine ⟨.lineComment ('/' :: '/' :: rest.takeWhile (· != '\n')), rest.dropWhile (· != '\n'),
    by simp [Piece.text], List.cons_ne_nil _ _, .lineComment ?_ ?_⟩
  · intro hbreak
    simpa using List.mem_takeWhile_imp hbreak
  · intro c hc
    have hhead := List.head?_dropWhile_not (· != '\n') rest
    rw [hc] at hhead
    simpa using hhead

theorem exists_fits_blockComment (last : Option Token) (rest : List Char) :
    ∃ (piece : Piece) (behind : List Char), '/' :: '*' :: rest = piece.text ++ behind ∧
      piece.text ≠ [] ∧ piece.Fits last behind := by
  cases hindex : indexOf? ['*', '/'] rest with
  | some position =>
      obtain ⟨body, after, rfl, hbody⟩ :=
        exists_eq_append_of_indexOf? (List.cons_ne_nil _ _) hindex
      exact ⟨.blockComment ('/' :: '*' :: (body ++ ['*', '/'])), after, by simp [Piece.text],
        List.cons_ne_nil _ _, .blockComment hbody⟩
  | none =>
      have hbody : ¬ ['*', '/'] <:+: rest := by
        rw [← isSome_indexOf?_iff, hindex]
        exact Bool.false_ne_true
      exact ⟨.blockComment ('/' :: '*' :: rest), [], by simp [Piece.text], List.cons_ne_nil _ _,
        .unclosed hbody⟩

/-- Where a gap begins, a run of blanks or a comment fits. -/
theorem exists_fits_of_beginsGap {c : Char} {rest : List Char} (hgap : BeginsGap c rest)
    (last : Option Token) :
    ∃ (piece : Piece) (behind : List Char), c :: rest = piece.text ++ behind ∧ piece.text ≠ [] ∧
      piece.Fits last behind := by
  rcases hgap with hblank | ⟨rfl, hcomment⟩
  · obtain ⟨gap, hgap, -, hrest⟩ := exists_eq_append_skipBlanks rest
    refine ⟨.blank (c :: gap), skipBlanks rest, congrArg (c :: ·) hrest, List.cons_ne_nil _ _, ?_⟩
    exact .blank (List.forall_mem_cons.mpr ⟨hblank, hgap⟩) (noBlankFirst_skipBlanks rest)
  · cases rest with
    | nil => contradiction
    | cons d rest =>
        simp only [firstIs, List.head?_cons, opensComment, Bool.or_eq_true,
          beq_iff_eq] at hcomment
        rcases hcomment with rfl | rfl
        · exact exists_fits_lineComment last rest
        · exact exists_fits_blockComment last rest

/-- At every place of a script some piece fits. -/
theorem exists_fits (last : Option Token) (c : Char) (rest : List Char) :
    ∃ (piece : Piece) (behind : List Char), c :: rest = piece.text ++ behind ∧ piece.text ≠ [] ∧
      piece.Fits last behind := by
  by_cases hgap : BeginsGap c rest
  · exact exists_fits_of_beginsGap hgap last
  · obtain ⟨token, behind, hsplit, hreads⟩ := exists_reads hgap last
    obtain ⟨kind, d, body, rfl, -⟩ := hreads.exists_cons
    exact ⟨.token ⟨kind, d :: body⟩, behind, hsplit, List.cons_ne_nil d body, .token hreads⟩

/-! ## All pieces of a script -/

/-- The text is these pieces one behind the other; none is empty, and each fits where it stands. -/
inductive Consists : Option Token → List Char → List Piece → Prop
  | nil (last : Option Token) : Consists last [] []
  | cons {last : Option Token} {piece : Piece} {behind : List Char} {later : List Piece}
      (hfilled : piece.text ≠ []) (hfits : piece.Fits last behind)
      (hlater : Consists (piece.asToken?.or last) behind later) :
      Consists last (piece.text ++ behind) (piece :: later)

theorem Piece.Fits.piecesFrom_eq (hfits : piece.Fits last behind) (hfilled : piece.text ≠ []) :
    piecesFrom last (piece.text ++ behind) =
      piece :: piecesFrom (piece.asToken?.or last) behind := by
  obtain ⟨c, body, htext⟩ := List.exists_cons_of_ne_nil hfilled
  obtain ⟨make, hshape, rfl⟩ := hfits.shapeAt_eq htext
  rw [htext, piecesFrom_append hshape]

theorem consists_piecesFrom (last : Option Token) (text : List Char) :
    Consists last text (piecesFrom last text) := by
  induction hlength : text.length using Nat.strong_induction_on generalizing last text with
  | _ length ih =>
      cases text with
      | nil =>
          rw [piecesFrom_nil]
          exact .nil last
      | cons c rest =>
          obtain ⟨piece, behind, hsplit, hfilled, hfits⟩ := exists_fits last c rest
          have hshorter : behind.length < length := by
            have hwidth := List.length_pos_iff.mpr hfilled
            rw [← hlength, hsplit, List.length_append]
            omega
          rw [hsplit, hfits.piecesFrom_eq hfilled]
          exact .cons hfilled hfits (ih _ hshorter _ behind rfl)

/-- A script is read as the tokens among its pieces. -/
theorem Consists.lexes (hconsists : Consists last text found) (gap : Gap) :
    Lexes last gap text (gapped gap found) := by
  induction hconsists generalizing gap with
  | nil last => exact .done last gap
  | @cons last piece behind later _ hfits _ ih =>
      cases hfits with
      | token hreads => exact .token hreads (ih .closed)
      | _ => exact .skip (ih _)

theorem Consists.eq_piecesFrom (hconsists : Consists last text found) :
    found = piecesFrom last text := by
  induction hconsists with
  | nil last => rw [piecesFrom_nil]
  | cons hfilled hfits _ ih => rw [hfits.piecesFrom_eq hfilled, ih]

theorem consists_iff : Consists last text found ↔ found = piecesFrom last text := by
  constructor
  · exact Consists.eq_piecesFrom
  · rintro rfl
    exact consists_piecesFrom last text

theorem Consists.length_le (hconsists : Consists last text found) :
    found.length ≤ text.length := by
  induction hconsists with
  | nil => exact Nat.le_refl 0
  | cons hfilled _ _ ih =>
      have hwidth := List.length_pos_iff.mpr hfilled
      rw [List.length_cons, List.length_append]
      omega

end Stencil.Script
