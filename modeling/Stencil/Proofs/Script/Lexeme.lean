import Stencil.Proofs.Script.Written

/-!
# The tokens and gaps of a script

The lexer passes one piece with each turn and keeps a list of tokens and gaps.  It appends each
token, and it appends a gap for blanks or a comment unless the list ends with a gap, which then
stands for them too.  It comes to the end of every script, and nothing is lost but blanks and
comments: a gap stands where a maximal run of them was, and says whether it held a line feed.
-/

namespace Stencil.Script

open Stencil.Text

/-- A token, or the text that stands for blanks and comments. -/
inductive Lexeme where
  | token (token : Token)
  | gap (text : List Char)
  deriving DecidableEq

variable {last : Option Token} {piece : Piece} {text behind script : List Char} {position : Nat}
  {stream : List Lexeme} {found passed : List Piece}

/-! ## The growing list -/

/-- A gap at the end takes up a line break; behind anything else a gap is appended. -/
def addGap (stream : List Lexeme) (breaks : Bool) : List Lexeme :=
  match stream.getLast? with
  | some (.gap _) => if breaks then stream.dropLast ++ [.gap ['\n']] else stream
  | _ => stream ++ [.gap (if breaks then ['\n'] else [' '])]

def addPiece (stream : List Lexeme) : Piece → List Lexeme
  | .token token => stream ++ [.token token]
  | .blank text => addGap stream (text.contains '\n')
  | .lineComment _ => addGap stream false
  | .blockComment text => addGap stream (text.contains '\n')

def lexemes (script : List Char) : List Lexeme :=
  (pieces script).foldl addPiece []

theorem addGap_cons (hfilled : stream ≠ []) (lexeme : Lexeme) (breaks : Bool) :
    addGap (lexeme :: stream) breaks = lexeme :: addGap stream breaks := by
  rw [addGap, addGap, List.getLast?_cons_of_ne_nil hfilled, List.dropLast_cons_of_ne_nil hfilled]
  split
  next => split <;> rfl
  next => rfl

theorem addGap_token_cons (token : Token) (stream : List Lexeme) (breaks : Bool) :
    addGap (.token token :: stream) breaks = .token token :: addGap stream breaks := by
  cases stream with
  | nil => rfl
  | cons lexeme later => exact addGap_cons (List.cons_ne_nil lexeme later) _ breaks

/-- A line comment holds no line feed, so it is right to add it without one. -/
theorem Piece.Fits.addPiece_eq (hfits : piece.Fits last behind) (hgap : piece.asToken? = none)
    (stream : List Lexeme) : addPiece stream piece = addGap stream (piece.text.contains '\n') := by
  cases hfits with
  | token => contradiction
  | blank => rfl
  | lineComment hbody => simp [addPiece, Piece.text, hbody]
  | blockComment => rfl
  | unclosed => rfl

/-! ## What the gaps stand for -/

/-- What stands for blanks and comments: a line feed if they hold one, and a space otherwise. -/
def gapText (skipped : List Char) : List Char :=
  if '\n' ∈ skipped then ['\n'] else [' ']

/-- A token stands for itself, and a gap for a maximal run of blanks and comments. -/
inductive Represents : List Lexeme → List Piece → Prop
  | nil : Represents [] []
  | token {token : Token} {stream : List Lexeme} {later : List Piece}
      (hlater : Represents stream later) :
      Represents (.token token :: stream) (.token token :: later)
  | gap {run later : List Piece} {stream : List Lexeme} (hfilled : run ≠ [])
      (hrun : ∀ piece ∈ run, piece.asToken? = none)
      (hmaximal : ∀ piece ∈ later.head?, piece.asToken?.isSome)
      (hlater : Represents stream later) :
      Represents (.gap (gapText (run.flatMap Piece.text)) :: stream) (run ++ later)

theorem Represents.eq_nil_iff (hrepresents : Represents stream found) :
    stream = [] ↔ found = [] := by
  cases hrepresents with
  | nil => exact iff_of_true rfl rfl
  | token => simp
  | gap hfilled => simp [hfilled]

theorem addGap_nil (text : List Char) :
    addGap [] (text.contains '\n') = [.gap (gapText text)] := by
  simp [addGap, gapText]

theorem addGap_gap (skipped text : List Char) :
    addGap [.gap (gapText skipped)] (text.contains '\n') = [.gap (gapText (skipped ++ text))] := by
  by_cases htext : '\n' ∈ text <;> simp [addGap, gapText, htext]

theorem forall_head?_concat
    {later : List Piece} (hmaximal : ∀ found ∈ later.head?, found.asToken?.isSome)
    (hpiece : later = [] → piece.asToken?.isSome) :
    ∀ found ∈ (later ++ [piece]).head?, found.asToken?.isSome := by
  cases later with
  | nil => simpa using hpiece rfl
  | cons first rest => exact hmaximal

theorem represents_run (hfilled : found ≠ []) (hrun : ∀ piece ∈ found, piece.asToken? = none) :
    Represents [.gap (gapText (found.flatMap Piece.text))] found := by
  have hrepresents := Represents.gap hfilled hrun (by simp) .nil
  rwa [List.append_nil] at hrepresents

theorem Represents.addGap (hrepresents : Represents stream passed)
    (hgap : piece.asToken? = none) :
    Represents (addGap stream (piece.text.contains '\n')) (passed ++ [piece]) := by
  induction hrepresents with
  | nil =>
      have hsingle := represents_run (List.cons_ne_nil piece []) (by simpa using hgap)
      rwa [List.flatMap_singleton, ← addGap_nil] at hsingle
  | token _ ih =>
      rw [addGap_token_cons]
      exact .token ih
  | @gap run later stream hfilled hrun hmaximal hlater ih =>
      by_cases hend : later = []
      · -- The gap at the end takes the piece up.
        subst hend
        obtain rfl := hlater.eq_nil_iff.mpr rfl
        have hlonger : ∀ found ∈ run ++ [piece], found.asToken? = none := by
          simpa [or_imp, forall_and, hgap] using hrun
        have hgrown := represents_run (by simp) hlonger
        rw [List.flatMap_append, List.flatMap_singleton, ← addGap_gap] at hgrown
        rwa [List.append_nil]
      · rw [addGap_cons (hlater.eq_nil_iff.not.mpr hend), List.append_assoc]
        exact .gap hfilled hrun (forall_head?_concat hmaximal fun hnil => absurd hnil hend) ih

theorem Represents.addToken (hrepresents : Represents stream passed) (token : Token) :
    Represents (stream ++ [.token token]) (passed ++ [.token token]) := by
  induction hrepresents with
  | nil => exact .token .nil
  | token _ ih => exact .token ih
  | gap hfilled hrun hmaximal _ ih =>
      rw [List.append_assoc]
      exact .gap hfilled hrun (forall_head?_concat hmaximal fun _ => rfl) ih

/-- With one more piece, what is found stands for all that is passed. -/
theorem Represents.addPiece
    (hrepresents : Represents stream passed) (hfits : piece.Fits last behind) :
    Represents (addPiece stream piece) (passed ++ [piece]) := by
  cases piece with
  | token token => exact hrepresents.addToken token
  | _ =>
      rw [hfits.addPiece_eq rfl]
      exact hrepresents.addGap rfl

theorem Consists.represents (hconsists : Consists last text found)
    (hrepresents : Represents stream passed) :
    Represents (found.foldl Script.addPiece stream) (passed ++ found) := by
  induction hconsists generalizing stream passed with
  | nil => rwa [List.append_nil]
  | cons _ hfits _ ih =>
      rw [List.append_cons]
      exact ih (hrepresents.addPiece hfits)

/-! ## The turns of the lexer -/

/-- The lexer in a script: how many characters it has passed, the last token among them, and what
it has found. -/
structure Lexer where
  position : Nat
  last : Option Token
  stream : List Lexeme

namespace Lexer

/-- The lexer passes the piece that is ahead of it, unless it is at the end. -/
def turn? (script : List Char) (lexer : Lexer) : Option Lexer :=
  match script.drop lexer.position with
  | [] => none
  | c :: rest =>
    let (make, width) := shapeAt lexer.last c rest
    let piece := make (c :: rest.take width)
    some ⟨lexer.position + (1 + width), piece.asToken?.or lexer.last, addPiece lexer.stream piece⟩

/-- After so many turns the lexer is at the end, and this is what it has found. -/
inductive Finishes (script : List Char) : Lexer → Nat → List Lexeme → Prop
  | done {lexer : Lexer} (hend : lexer.turn? script = none) :
      Finishes script lexer 0 lexer.stream
  | turn {lexer next : Lexer} {turns : Nat} {stream : List Lexeme}
      (hturn : lexer.turn? script = some next) (hlater : Finishes script next turns stream) :
      Finishes script lexer (turns + 1) stream

end Lexer

theorem Piece.Fits.turn?_eq (hfits : piece.Fits last behind) (hfilled : piece.text ≠ [])
    (hahead : script.drop position = piece.text ++ behind) (stream : List Lexeme) :
    Lexer.turn? script ⟨position, last, stream⟩ =
      some ⟨position + piece.text.length, piece.asToken?.or last, addPiece stream piece⟩ := by
  obtain ⟨c, body, htext⟩ := List.exists_cons_of_ne_nil hfilled
  obtain ⟨make, hshape, rfl⟩ := hfits.shapeAt_eq htext
  rw [htext, List.cons_append] at hahead
  simp only [Lexer.turn?, hahead, hshape, List.take_left, htext, List.length_cons,
    Nat.add_comm 1]

/-- The lexer takes one turn for each piece. -/
theorem Consists.finishes (hconsists : Consists last text found)
    (hahead : script.drop position = text) (stream : List Lexeme) :
    Lexer.Finishes script ⟨position, last, stream⟩ found.length (found.foldl addPiece stream) := by
  induction hconsists generalizing position stream with
  | nil => exact .done (by rw [Lexer.turn?, hahead])
  | @cons last piece behind later hfilled hfits _ ih =>
      have hbehind : script.drop (position + piece.text.length) = behind := by
        rw [← List.drop_drop, hahead, List.drop_left]
      exact .turn (hfits.turn?_eq hfilled hahead stream) (ih hbehind _)

/-! ## The tokens and gaps of a whole script -/

/-- The tokens of the list, each with the gap before it; `gap` is the one before the list. -/
def tokensApart (gap : Gap) : List Lexeme → List (Gap × Token)
  | [] => []
  | .token token :: later => (gap, token) :: tokensApart .closed later
  | .gap text :: later => tokensApart (gapOf text) later

theorem Gap.grow_append (gap : Gap) (skipped text : List Char) :
    gap.grow (skipped ++ text) = (gap.grow skipped).grow text := by
  by_cases hskipped : '\n' ∈ skipped <;> simp [Gap.grow, hskipped]

theorem gapOf_gapText (skipped : List Char) :
    gapOf (gapText skipped) = Gap.closed.grow skipped := by
  by_cases hskipped : '\n' ∈ skipped <;> simp [gapOf, gapText, Gap.grow, hskipped]

theorem gapped_run_append {run : List Piece} (hfilled : run ≠ [])
    (hrun : ∀ piece ∈ run, piece.asToken? = none) (gap : Gap) (later : List Piece) :
    gapped gap (run ++ later) = gapped (gap.grow (run.flatMap Piece.text)) later := by
  induction run generalizing gap with
  | nil => contradiction
  | cons piece run ih =>
      obtain ⟨hpiece, hrun⟩ := List.forall_mem_cons.mp hrun
      rw [List.cons_append, gapped, hpiece, List.flatMap_cons, Gap.grow_append]
      by_cases hend : run = []
      · subst hend
        simp [Gap.grow]
      · exact ih hend hrun _

/-- The tokens are as far apart as among the pieces, unless a gap before these goes on in them. -/
theorem Represents.tokensApart_eq (hrepresents : Represents stream found) {gap : Gap}
    (hgap : gap = .closed ∨ ∀ piece ∈ found.head?, piece.asToken?.isSome) :
    tokensApart gap stream = gapped gap found := by
  induction hrepresents generalizing gap with
  | nil => rfl
  | token _ ih => exact congrArg _ (ih (.inl rfl))
  | @gap run later stream hfilled hrun hmaximal _ ih =>
      obtain ⟨first, run, rfl⟩ := List.exists_cons_of_ne_nil hfilled
      have hclosed : gap = .closed := by
        refine hgap.resolve_right fun htoken => ?_
        have hfirst := htoken first rfl
        rw [hrun first List.mem_cons_self] at hfirst
        contradiction
      rw [hclosed, gapped_run_append hfilled hrun, ← gapOf_gapText]
      exact ih (.inr hmaximal)

/-- The lexer comes to the end of every script, with one turn for each piece and at most one for
each character.  The script consists of its pieces and of no others.  In what the lexer finds, every
token among them stands for itself and every maximal run of blanks and comments has one gap, and
the writer takes its tokens from there. -/
theorem lexemes_represent_pieces (script : List Char) :
    Lexer.Finishes script ⟨0, none, []⟩ (pieces script).length (lexemes script) ∧
      (pieces script).length ≤ script.length ∧
      (∀ found, Consists none script found ↔ found = pieces script) ∧
      Represents (lexemes script) (pieces script) ∧
      tokensApart .closed (lexemes script) = gapped .closed (pieces script) := by
  have hconsists := consists_piecesFrom none script
  have hrepresents := hconsists.represents .nil
  exact ⟨hconsists.finishes rfl [], hconsists.length_le, fun _ => consists_iff, hrepresents,
    hrepresents.tokensApart_eq (.inl rfl)⟩

/-- The blanks and both comments are one gap, and the first comment breaks the line. -/
example : gapped .closed (pieces "a /*b\n*/ /*c*/d".toList) =
    [(.closed, ⟨.word, ['a']⟩), (.line, ⟨.word, ['d']⟩)] := by
  decide +kernel

end Stencil.Script
