import Stencil.Proofs.Sheet.Thinning
import Stencil.Proofs.Sheet.Tight
import Mathlib.Data.List.Forall2

/-!
# Minifying once is enough

The small form of a sheet is made of tight stretches and of quoted strings that are found again
where they stand.  Minifying it again finds the same pieces and has nothing left to do.
-/

namespace Stencil.Sheet

open Stencil.Text

/-! ## Pieces that are rewritten -/

/-- A stretch is thinned, a comment becomes a space, and a string is kept. -/
inductive RewrittenAs : Piece Span → Piece Span → Prop
  | plain {stretch stretch' : List Char} (hthins : Thins stretch stretch') :
      RewrittenAs (.plain stretch) (.plain stretch')
  | comment {found : List Char} (hcomment : IsComment found) :
      RewrittenAs (.hit found .comment) (.plain [' '])
  | quoted {found : List Char} (hquoted : IsQuoted found) :
      RewrittenAs (.hit found .quoted) (.hit found .quoted)

theorem relaxes_joined
    {pieces pieces' : List (Piece Span)} (hrewritten : List.Forall₂ RewrittenAs pieces pieces') :
    Relaxes (joined pieces) (joined pieces') := by
  induction hrewritten with
  | nil => exact .refl []
  | cons hpiece _ ih =>
      cases hpiece with
      | plain hthins => exact hthins.relaxes.append ih
      | comment hcomment => exact hcomment.relaxes.append ih
      | quoted hquoted => exact (Relaxes.refl _).append ih

theorem IsQuoted.ne_nil {text : List Char} (hquoted : IsQuoted text) : text ≠ [] := by
  obtain ⟨double, rest, -, rfl⟩ := hquoted
  exact List.cons_ne_nil _ _

theorem settled_of_rewritten
    {pieces pieces' : List (Piece Span)} (hsettled : Settled span? pieces)
    (hrewritten : List.Forall₂ RewrittenAs pieces pieces') : Settled span? pieces' := by
  induction hrewritten with
  | nil => exact .nil
  | cons hpiece hrest ih =>
      have hrelaxes := relaxes_joined hrest
      cases hpiece with
      | plain hthins =>
          cases hsettled with
          | plain hidle hlater => exact .plain (hthins.idle hrelaxes hidle) (ih hlater)
      | comment hcomment =>
          cases hsettled with
          | hit _ _ hlater =>
              refine .plain (fun tail htail hnonempty => ?_) (ih hlater)
              rcases List.suffix_cons_iff.mp htail with rfl | hnil
              · rfl
              · exact absurd (List.suffix_nil.mp hnil) hnonempty
      | quoted hquoted =>
          cases hsettled with
          | hit hnonempty _ hlater =>
              exact .hit hnonempty (span?_append_of_isQuoted hquoted _) (ih hlater)

theorem isQuoted_or_isComment_of_mem
    {pieces : List (Piece Span)} (hsettled : Settled span? pieces) {found : List Char}
    {value : Span} (hmem : .hit found value ∈ pieces) :
    value = .quoted ∧ IsQuoted found ∨ value = .comment ∧ IsComment found := by
  obtain ⟨-, behind, hspan⟩ := hsettled.recognise_of_mem hmem
  obtain ⟨found', behind', htext, hwidth, hspec⟩ := isQuoted_or_isComment_of_span? hspan
  obtain ⟨rfl, -⟩ := List.append_inj htext hwidth
  exact hspec

/-! ## The two passes over a sheet -/

def blanked : Piece Span → Piece Span
  | .hit _ .comment => .plain [' ']
  | piece => piece

def tightened : Piece Span → Piece Span
  | .plain stretch => .plain (tighten stretch)
  | .hit found value => .hit found value

theorem blankComments_eq (sheet : List Char) :
    blankComments sheet = joined ((cut span? sheet).map blanked) := by
  rw [blankComments, substitute, joined, List.flatMap_map]
  congr 1
  funext piece
  cases piece with
  | plain stretch => rfl
  | hit found value => cases value <;> rfl

theorem minify_eq (sheet : List Char) :
    minify sheet = trim (joined ((cut span? (blankComments sheet)).map tightened)) := by
  rw [minify, joined, List.flatMap_map]
  congr 2
  funext piece
  cases piece <;> rfl

theorem rewritten_blanked
    {pieces : List (Piece Span)} (hsettled : Settled span? pieces) :
    List.Forall₂ RewrittenAs pieces (pieces.map blanked) := by
  rw [List.forall₂_map_right_iff, List.forall₂_same]
  intro piece hmem
  cases piece with
  | plain stretch => exact .plain (.refl stretch)
  | hit found value =>
      rcases isQuoted_or_isComment_of_mem hsettled hmem with ⟨rfl, hquoted⟩ | ⟨rfl, hcomment⟩
      · exact .quoted hquoted
      · exact .comment hcomment

theorem quoted_of_mem_cut_blankComments
    {sheet found : List Char} {value : Span}
    (hmem : .hit found value ∈ cut span? (blankComments sheet)) : value = .quoted := by
  have hsettled := settled_cut bounded_span? sheet
  have hblanked := settled_of_rewritten hsettled (rewritten_blanked hsettled)
  rw [blankComments_eq, hblanked.cut_eq] at hmem
  obtain ⟨piece, -, hpiece⟩ := List.mem_map.mp (hit_mem_of_mem_mergeFrom hmem)
  cases piece with
  | plain stretch => contradiction
  | hit found' value' =>
      cases value' with
      | quoted =>
          obtain ⟨-, rfl⟩ := Piece.hit.inj hpiece
          rfl
      | comment => contradiction

theorem rewritten_tightened
    {pieces : List (Piece Span)} (hsettled : Settled span? pieces)
    (hquoted : ∀ found value, .hit found value ∈ pieces → value = .quoted) :
    List.Forall₂ RewrittenAs pieces (pieces.map tightened) := by
  rw [List.forall₂_map_right_iff, List.forall₂_same]
  intro piece hmem
  cases piece with
  | plain stretch => exact .plain (thins_tighten stretch)
  | hit found value =>
      obtain rfl := hquoted found value hmem
      rcases isQuoted_or_isComment_of_mem hsettled hmem with ⟨-, hfound⟩ | ⟨hcomment, -⟩
      · exact .quoted hfound
      · contradiction

/-! ## Small sheets -/

theorem isBlank_quoteMark (double : Bool) : isBlank (quoteMark double) = false := by
  cases double <;> rfl

theorem IsQuoted.noBlankFirst_append {text : List Char} (hquoted : IsQuoted text)
    (behind : List Char) : NoBlankFirst (text ++ behind) := by
  obtain ⟨double, rest, -, rfl⟩ := hquoted
  intro c hc
  obtain rfl : quoteMark double = c := by simpa using hc
  exact isBlank_quoteMark double

theorem IsQuoted.noBlankFirst_reverse {text : List Char} (hquoted : IsQuoted text)
    (before : List Char) : NoBlankFirst (before ++ text).reverse := by
  obtain ⟨double, rest, hrest, rfl⟩ := hquoted
  obtain ⟨inner, rfl⟩ := hrest.exists_concat
  intro c hc
  obtain rfl : quoteMark double = c := by simpa using hc
  exact isBlank_quoteMark double

theorem idle_of_append
    {stretch behind gap : List Char} (hidle : Idle span? stretch (behind ++ gap)) :
    Idle span? stretch behind := by
  intro tail htail hnonempty
  have hnone := hidle tail htail hnonempty
  rw [← List.append_assoc] at hnone
  exact span?_eq_none_of_append (List.append_ne_nil_of_left_ne_nil hnonempty behind) hnone

/-- Tight stretches and quoted strings in turn, where no stretch begins a string or a comment. -/
inductive Minified : List (Piece Span) → Prop
  | last {stretch : List Char} (htight : Tight stretch) (hidle : Idle span? stretch []) :
      Minified [.plain stretch]
  | next {stretch found : List Char} {pieces : List (Piece Span)} (htight : Tight stretch)
      (hquoted : IsQuoted found) (hidle : Idle span? stretch (found ++ joined pieces))
      (hrest : Minified pieces) : Minified (.plain stretch :: .hit found .quoted :: pieces)

namespace Minified

variable {pieces : List (Piece Span)}

theorem settled (hminified : Minified pieces) : Settled span? pieces := by
  induction hminified with
  | last _ hidle => exact .plain hidle .nil
  | next _ hquoted hidle _ ih =>
      exact .plain hidle (.hit hquoted.ne_nil (span?_append_of_isQuoted hquoted _) ih)

theorem alternates (hminified : Minified pieces) : Alternates pieces := by
  induction hminified with
  | last => exact .last _
  | next _ _ _ _ ih => exact .next _ _ _ ih

theorem map_blanked (hminified : Minified pieces) : pieces.map blanked = pieces := by
  induction hminified with
  | last => rfl
  | next _ _ _ _ ih =>
      rw [List.map_cons, List.map_cons, ih]
      rfl

theorem map_tightened (hminified : Minified pieces) : pieces.map tightened = pieces := by
  induction hminified with
  | last htight _ => rw [List.map_singleton, tightened, htight.tighten_eq_self]
  | next htight _ _ _ ih =>
      rw [List.map_cons, List.map_cons, ih, tightened, tightened, htight.tighten_eq_self]

/-- Nothing but blanks at the ends can be taken from a small sheet. -/
theorem minify_joined (hminified : Minified pieces) :
    minify (joined pieces) = trim (joined pieces) := by
  have hcut : cut span? (joined pieces) = pieces :=
    hminified.settled.cut_joined hminified.alternates
  have hblank : blankComments (joined pieces) = joined pieces := by
    rw [blankComments_eq, hcut, hminified.map_blanked]
  rw [minify_eq, hblank, hcut, hminified.map_tightened]

theorem of_tightened
    (hsettled : Settled span? (pieces.map tightened)) (halternates : Alternates pieces)
    (hquoted : ∀ found value, .hit found value ∈ pieces → value = .quoted) :
    Minified (pieces.map tightened) := by
  induction halternates with
  | last stretch =>
      cases hsettled with
      | plain hidle _ => exact .last (tight_tighten stretch) hidle
  | next stretch found value hrest ih =>
      obtain rfl := hquoted found value (by simp)
      rcases isQuoted_or_isComment_of_mem hsettled
          (List.mem_cons_of_mem _ List.mem_cons_self) with ⟨-, hfound⟩ | ⟨hcomment, -⟩
      · cases hsettled with
        | plain hidle hlater =>
            cases hlater with
            | hit _ _ hlater =>
                refine .next (tight_tighten stretch) hfound hidle (ih hlater ?_)
                intro found' value' hmem
                exact hquoted found' value' (List.mem_cons_of_mem _ (List.mem_cons_of_mem _ hmem))
      · contradiction

/-! ## Trimming -/

theorem exists_skipBlanks (hminified : Minified pieces) :
    ∃ pieces', Minified pieces' ∧ joined pieces' = skipBlanks (joined pieces) := by
  cases hminified with
  | @last stretch htight hidle =>
      have hsuffix := skipBlanks_suffix stretch
      have htight' := htight.of_infix hsuffix.isInfix
      exact ⟨_, .last htight' (hidle.of_suffix hsuffix), by simp⟩
  | @next stretch found pieces htight hquoted hidle hrest =>
      have hsuffix := skipBlanks_suffix stretch
      have htight' := htight.of_infix hsuffix.isInfix
      have hfirst : NoBlankFirst (found ++ joined pieces) := hquoted.noBlankFirst_append _
      refine ⟨_, .next htight' hquoted (hidle.of_suffix hsuffix) hrest, ?_⟩
      rw [joined_plain, joined_hit, joined_plain, joined_hit,
        skipBlanks_append_of_noBlankFirst hfirst]

theorem exists_trimEnd (hminified : Minified pieces) :
    ∃ pieces', Minified pieces' ∧ joined pieces' = trimEnd (joined pieces) := by
  induction hminified with
  | @last stretch htight hidle =>
      have htight' := htight.of_infix (trimEnd_isPrefix stretch).isInfix
      have hidle' : Idle span? (trimEnd stretch) [] := by
        obtain ⟨gap, hgap⟩ := trimEnd_isPrefix stretch
        rw [← hgap] at hidle
        exact idle_of_append hidle.of_append
      exact ⟨_, .last htight' hidle', by simp⟩
  | @next stretch found pieces htight hquoted hidle hrest ih =>
      obtain ⟨pieces', hminified', hjoined⟩ := ih
      have hidle' : Idle span? stretch (found ++ joined pieces') := by
        obtain ⟨gap, hgap⟩ := trimEnd_isPrefix (joined pieces)
        rw [← hgap, ← List.append_assoc] at hidle
        rw [hjoined]
        exact idle_of_append hidle
      have hlast : NoBlankFirst (stretch ++ found).reverse := hquoted.noBlankFirst_reverse _
      refine ⟨_, .next htight hquoted hidle' hminified', ?_⟩
      rw [joined_plain, joined_hit, joined_plain, joined_hit, hjoined, ← List.append_assoc,
        ← List.append_assoc, trimEnd_append_of_noBlankFirst_reverse hlast]

theorem exists_trim (hminified : Minified pieces) :
    ∃ pieces', Minified pieces' ∧ joined pieces' = trim (joined pieces) := by
  obtain ⟨skipped, hskipped, hfirst⟩ := hminified.exists_skipBlanks
  obtain ⟨trimmed, htrimmed, hlast⟩ := hskipped.exists_trimEnd
  rw [hfirst] at hlast
  exact ⟨trimmed, htrimmed, hlast⟩

end Minified

theorem exists_minified (sheet : List Char) :
    ∃ pieces, Minified pieces ∧ joined pieces = minify sheet := by
  have hsettled : Settled span? (cut span? (blankComments sheet)) := settled_cut bounded_span? _
  have hquoted : ∀ found value,
      .hit found value ∈ cut span? (blankComments sheet) → value = .quoted :=
    fun _ _ => quoted_of_mem_cut_blankComments
  have htightened := settled_of_rewritten hsettled (rewritten_tightened hsettled hquoted)
  have hminified := Minified.of_tightened htightened (alternates_cut _) hquoted
  rw [minify_eq]
  exact hminified.exists_trim

/-- A sheet that was minified is as small as minifying makes it, also where quotes or comments in it
are not closed. -/
theorem minify_minify (sheet : List Char) : minify (minify sheet) = minify sheet := by
  obtain ⟨pieces, hminified, hpieces⟩ := exists_minified sheet
  have htrimmed : trim (minify sheet) = minify sheet := by
    rw [minify_eq, trim_trim]
  calc
    minify (minify sheet) = minify (joined pieces) := by rw [hpieces]
    _ = trim (joined pieces) := hminified.minify_joined
    _ = trim (minify sheet) := by rw [hpieces]
    _ = minify sheet := htrimmed

end Stencil.Sheet
