import Stencil.Sheet.Segment
import Stencil.Proofs.Text.Pieces
import Stencil.Proofs.Text.Search

/-!
# A reader of strings and comments

Whether a quoted string or a comment begins at a place depends on all that follows.  A reader goes
along the text from there and is closed at the end of the string or comment.  Two texts can be
exchanged inside of a sheet if every reader goes through both alike.
-/

namespace Stencil.Sheet

open Stencil.Text

/-- How far a reader has come.  It is lost where neither a string nor a comment began. -/
inductive Reader where
  | lost
  | slash
  | comment (star : Bool)
  | quoted (double escaped : Bool)
  | closed
  deriving DecidableEq

def quoteMark (double : Bool) : Char :=
  if double then '"' else '\''

namespace Reader

def step : Reader → Char → Reader
  | lost, _ => lost
  | slash, c => if c = '*' then comment false else lost
  | comment star, c => if star ∧ c = '/' then closed else comment (c = '*')
  | quoted double true, _ => quoted double false
  | quoted double false, c =>
    if c = '\\' then quoted double true
    else if c = quoteMark double then closed
    else quoted double false
  | closed, _ => closed

def start (c : Char) : Reader :=
  if c = '"' then quoted true false
  else if c = '\'' then quoted false false
  else if c = '/' then slash
  else lost

def read (reader : Reader) (text : List Char) : Reader :=
  text.foldl step reader

@[simp] theorem read_nil (reader : Reader) : reader.read [] = reader := rfl

@[simp] theorem read_cons (reader : Reader) (c : Char) (text : List Char) :
    reader.read (c :: text) = (reader.step c).read text := rfl

theorem read_append (reader : Reader) (first second : List Char) :
    reader.read (first ++ second) = (reader.read first).read second :=
  List.foldl_append

@[simp] theorem read_closed (text : List Char) : closed.read text = closed := by
  induction text with
  | nil => rfl
  | cons c text ih => exact ih

@[simp] theorem read_lost (text : List Char) : lost.read text = lost := by
  induction text with
  | nil => rfl
  | cons c text ih => exact ih

theorem read_quoted (double escaped : Bool) (text : List Char) :
    (quoted double escaped).read text = closed ∨
      ∃ escaped', (quoted double escaped).read text = quoted double escaped' := by
  induction text generalizing escaped with
  | nil => exact .inr ⟨escaped, rfl⟩
  | cons c text ih =>
      cases escaped with
      | true => exact ih false
      | false =>
          rw [read_cons, step]
          split
          next => exact ih true
          next =>
            split
            next => exact .inl (read_closed text)
            next => exact ih false

theorem read_comment_eq_closed_iff {star : Bool} {text : List Char} :
    (comment star).read text = closed ↔
      (star ∧ ['/'] <+: text) ∨ ['*', '/'] <:+: text := by
  induction text generalizing star with
  | nil => simp
  | cons c text ih =>
      rw [read_cons, step, List.infix_cons_iff, List.cons_prefix_cons, List.cons_prefix_cons]
      split
      next hclosed => simp [hclosed]
      next hopen =>
        rw [ih]
        by_cases hslash : '/' = c
        · subst hslash
          simp_all
        · simp [hslash, eq_comm]

end Reader

/-! ## Strings and comments -/

/-- A text from behind the opening quote of a string through its closing one. -/
inductive QuotedRest (double : Bool) : List Char → Prop
  | close : QuotedRest double [quoteMark double]
  | escaped (c : Char) {text : List Char} (hrest : QuotedRest double text) :
      QuotedRest double ('\\' :: c :: text)
  | other {c : Char} {text : List Char} (hescape : c ≠ '\\') (hquote : c ≠ quoteMark double)
      (hrest : QuotedRest double text) : QuotedRest double (c :: text)

def IsQuoted (text : List Char) : Prop :=
  ∃ double rest, QuotedRest double rest ∧ text = quoteMark double :: rest

def IsComment (text : List Char) : Prop :=
  ∃ body, text = '/' :: '*' :: (body ++ ['*', '/'])

theorem quoteMark_ne_escape (double : Bool) : quoteMark double ≠ '\\' := by
  cases double <;> decide

theorem QuotedRest.exists_concat
    {double : Bool} {text : List Char} (hrest : QuotedRest double text) :
    ∃ inner, text = inner ++ [quoteMark double] := by
  induction hrest with
  | close => exact ⟨[], rfl⟩
  | escaped c _ ih =>
      obtain ⟨inner, rfl⟩ := ih
      exact ⟨'\\' :: c :: inner, rfl⟩
  | @other c _ _ _ _ ih =>
      obtain ⟨inner, rfl⟩ := ih
      exact ⟨c :: inner, rfl⟩

theorem quotedRestWidth?_append_of_quotedRest
    {double : Bool} {text : List Char} (hrest : QuotedRest double text) (behind : List Char) :
    quotedRestWidth? (quoteMark double) (text ++ behind) = some text.length := by
  induction hrest with
  | close =>
      rw [List.singleton_append, quotedRestWidth?, if_pos (beq_self_eq_true _)]
      · rfl
      · exact quoteMark_ne_escape double
  | escaped c hrest ih =>
      rw [List.cons_append, List.cons_append, quotedRestWidth?, ih]
      rfl
  | other hescape hquote hrest ih =>
      rw [List.cons_append, quotedRestWidth?, if_neg (by simpa using hquote), ih]
      · rfl
      · exact hescape

theorem exists_quotedRest_of_quotedRestWidth?
    {double : Bool} {text : List Char} {width : Nat}
    (hwidth : quotedRestWidth? (quoteMark double) text = some width) :
    ∃ rest behind, QuotedRest double rest ∧ text = rest ++ behind ∧ width = rest.length := by
  fun_induction quotedRestWidth? (quoteMark double) text generalizing width with
  | case1 => contradiction
  | case2 => contradiction
  | case3 c text ih =>
      obtain ⟨later, hlater, rfl⟩ := Option.map_eq_some_iff.mp hwidth
      obtain ⟨rest, behind, hrest, rfl, rfl⟩ := ih hlater
      exact ⟨'\\' :: c :: rest, behind, .escaped c hrest, rfl, rfl⟩
  | case4 c text hescape hquote =>
      obtain rfl : c = quoteMark double := beq_iff_eq.mp hquote
      obtain rfl := Option.some.inj hwidth
      exact ⟨[quoteMark double], text, .close, rfl, rfl⟩
  | case5 c text hescape hquote ih =>
      rw [beq_iff_eq] at hquote
      obtain ⟨later, hlater, rfl⟩ := Option.map_eq_some_iff.mp hwidth
      obtain ⟨rest, behind, hrest, rfl, rfl⟩ := ih hlater
      exact ⟨c :: rest, behind, .other hescape hquote hrest, rfl, rfl⟩

theorem isSome_quotedRestWidth?_iff {double : Bool} {text : List Char} :
    (quotedRestWidth? (quoteMark double) text).isSome ↔
      (Reader.quoted double false).read text = .closed := by
  fun_induction quotedRestWidth? (quoteMark double) text with
  | case1 => simp
  | case2 => simp [Reader.step]
  | case3 c text ih =>
      rw [Option.isSome_map, ih]
      rfl
  | case4 c text hescape hquote =>
      rw [beq_iff_eq] at hquote
      rw [Reader.read_cons, Reader.step, if_neg hescape, if_pos hquote, Reader.read_closed]
      simp
  | case5 c text hescape hquote ih =>
      rw [beq_iff_eq] at hquote
      rw [Option.isSome_map, ih, Reader.read_cons, Reader.step, if_neg hescape, if_neg hquote]

theorem span?_quoteMark (double : Bool) (rest : List Char) :
    span? (quoteMark double :: rest) =
      (quotedRestWidth? (quoteMark double) rest).map fun width => ⟨width + 1, .quoted⟩ := by
  cases double <;> rfl

theorem start_quoteMark (double : Bool) :
    Reader.start (quoteMark double) = .quoted double false := by
  cases double <;> rfl

/-- A place begins a string or a comment if the reader that starts there is closed. -/
theorem isSome_span?_iff {c : Char} {rest : List Char} :
    (span? (c :: rest)).isSome ↔ (Reader.start c).read rest = .closed := by
  by_cases hquote : ∃ double, c = quoteMark double
  · obtain ⟨double, rfl⟩ := hquote
    rw [span?_quoteMark, start_quoteMark, Option.isSome_map, isSome_quotedRestWidth?_iff]
  · have hdouble : c ≠ '"' := fun heq => hquote ⟨true, heq⟩
    have hsingle : c ≠ '\'' := fun heq => hquote ⟨false, heq⟩
    rw [Reader.start, if_neg hdouble, if_neg hsingle]
    unfold span?
    split
    next heq => exact absurd (List.cons.inj heq).1 hdouble
    next heq => exact absurd (List.cons.inj heq).1 hsingle
    next text heq =>
      obtain ⟨rfl, rfl⟩ := List.cons.inj heq
      have hread : (Reader.comment false).read text = .closed ↔ ['*', '/'] <:+: text := by
        simp [Reader.read_comment_eq_closed_iff]
      rw [Option.isSome_map, isSome_indexOf?_iff, ← hread]
      rfl
    next hnotComment =>
      split
      next hslash =>
        subst hslash
        cases rest with
        | nil => simp
        | cons d rest =>
            have hstar : d ≠ '*' := by
              rintro rfl
              exact hnotComment rest rfl
            simp [Reader.step, hstar]
      next => simp

theorem span?_append_of_isQuoted {text : List Char} (hquoted : IsQuoted text)
    (behind : List Char) : span? (text ++ behind) = some ⟨text.length, .quoted⟩ := by
  obtain ⟨double, rest, hrest, rfl⟩ := hquoted
  rw [List.cons_append, span?_quoteMark, quotedRestWidth?_append_of_quotedRest hrest]
  rfl

theorem isQuoted_or_isComment_of_span?
    {text : List Char} {hit : Hit Span} (hspan : span? text = some hit) :
    ∃ found behind, text = found ++ behind ∧ hit.width = found.length ∧
      (hit.value = .quoted ∧ IsQuoted found ∨ hit.value = .comment ∧ IsComment found) := by
  have hstring (double : Bool) (rest : List Char)
      (hspan : span? (quoteMark double :: rest) = some hit) :
      ∃ found behind, quoteMark double :: rest = found ++ behind ∧ hit.width = found.length ∧
        (hit.value = .quoted ∧ IsQuoted found ∨ hit.value = .comment ∧ IsComment found) := by
    rw [span?_quoteMark] at hspan
    obtain ⟨width, hwidth, rfl⟩ := Option.map_eq_some_iff.mp hspan
    obtain ⟨inner, behind, hinner, rfl, rfl⟩ := exists_quotedRest_of_quotedRestWidth? hwidth
    exact ⟨quoteMark double :: inner, behind, rfl, rfl, .inl ⟨rfl, double, inner, hinner, rfl⟩⟩
  unfold span? at hspan
  split at hspan
  next rest => exact hstring true rest hspan
  next rest => exact hstring false rest hspan
  next rest =>
    obtain ⟨width, hwidth, rfl⟩ := Option.map_eq_some_iff.mp hspan
    obtain ⟨behind, hbehind⟩ := prefix_drop_of_indexOf? hwidth
    have hshort : width ≤ rest.length := by
      by_contra hlong
      rw [List.drop_of_length_le (by omega)] at hbehind
      contradiction
    refine ⟨'/' :: '*' :: (rest.take width ++ ['*', '/']), behind, ?_, ?_,
      .inr ⟨rfl, rest.take width, rfl⟩⟩
    · rw [List.cons_append, List.cons_append, List.append_assoc, hbehind, List.take_append_drop]
    · simp only [List.length_cons, List.length_append, List.length_take, List.length_nil]
      omega
  next => contradiction

theorem bounded_span? : Bounded span? := by
  intro text hit hspan
  obtain ⟨found, behind, rfl, hwidth, hfound⟩ := isQuoted_or_isComment_of_span? hspan
  have hnonempty : 0 < found.length := by
    rcases hfound with ⟨-, double, rest, -, rfl⟩ | ⟨-, body, rfl⟩ <;> simp
  rw [hwidth, List.length_append]
  omega

/-! ## Exchanging texts -/

/-- Every reader is closed by the first text or reads the second one alike. -/
def Relaxes (before after : List Char) : Prop :=
  ∀ reader : Reader, reader.read before = .closed ∨ reader.read before = reader.read after

namespace Relaxes

theorem refl (text : List Char) : Relaxes text text := fun _ => .inr rfl

theorem trans {first second third : List Char} (hfirst : Relaxes first second)
    (hsecond : Relaxes second third) : Relaxes first third := by
  intro reader
  rcases hfirst reader with hclosed | hfirst
  · exact .inl hclosed
  · rw [hfirst]
    exact hsecond reader

theorem append {before after behind behind' : List Char} (hhere : Relaxes before after)
    (hbehind : Relaxes behind behind') : Relaxes (before ++ behind) (after ++ behind') := by
  intro reader
  rw [Reader.read_append, Reader.read_append]
  rcases hhere reader with hclosed | hhere
  · rw [hclosed]
    exact .inl (Reader.read_closed behind)
  · rw [hhere]
    exact hbehind _

theorem closed {before after : List Char} (hrelaxes : Relaxes before after) {reader : Reader}
    (hclosed : reader.read after = .closed) : reader.read before = .closed := by
  rcases hrelaxes reader with hbefore | hbefore
  · exact hbefore
  · rw [hbefore, hclosed]

end Relaxes

theorem span?_eq_none_of_relaxes
    {c : Char} {before after : List Char} (hrelaxes : Relaxes before after)
    (hnone : span? (c :: before) = none) : span? (c :: after) = none := by
  rw [← Option.not_isSome_iff_eq_none, isSome_span?_iff] at hnone ⊢
  exact fun hclosed => hnone (hrelaxes.closed hclosed)

theorem span?_eq_none_of_append
    {text behind : List Char} (hnonempty : text ≠ []) (hnone : span? (text ++ behind) = none) :
    span? text = none := by
  obtain ⟨c, rest, rfl⟩ := List.exists_cons_of_ne_nil hnonempty
  rw [List.cons_append] at hnone
  rw [← Option.not_isSome_iff_eq_none, isSome_span?_iff] at hnone ⊢
  intro hclosed
  apply hnone
  rw [Reader.read_append, hclosed, Reader.read_closed]

/-- To all readers a comment is like a space, except to those that it closes. -/
theorem IsComment.relaxes {text : List Char} (hcomment : IsComment text) :
    Relaxes text [' '] := by
  obtain ⟨body, rfl⟩ := hcomment
  intro reader
  cases reader with
  | lost =>
      right
      rw [Reader.read_lost, Reader.read_lost]
  | slash => exact .inr (Reader.read_lost _)
  | closed => exact .inl (Reader.read_closed _)
  | comment star =>
      left
      have hends : ['*', '/'] <:+: '/' :: '*' :: (body ++ ['*', '/']) :=
        (List.suffix_append ('/' :: '*' :: body) ['*', '/']).isInfix
      exact Reader.read_comment_eq_closed_iff.mpr (.inr hends)
  | quoted double escaped =>
      have hslash (state : Bool) :
          (Reader.quoted double state).step '/' = (Reader.quoted double escaped).step ' ' := by
        cases double <;> cases state <;> cases escaped <;> rfl
      have hlast : '/' :: '*' :: (body ++ ['*', '/']) = '/' :: '*' :: (body ++ ['*']) ++ ['/'] := by
        simp
      rw [hlast, Reader.read_append]
      rcases Reader.read_quoted double escaped ('/' :: '*' :: (body ++ ['*'])) with hread | hread
      · rw [hread]
        exact .inl rfl
      · obtain ⟨state, hread⟩ := hread
        rw [hread]
        exact .inr (hslash state)

end Stencil.Sheet
