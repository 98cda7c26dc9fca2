import Stencil.Directive.Stream
import Stencil.Proofs.Text.Search

/-!
# Scanning for directives

The search for the mark that closes a directive finds one whenever there is one, however the quotes
of the text stand.  What the scan takes for a directive is therefore a part of the text between the
two marks, and the scan of a text goes on behind it.
-/

namespace Stencil.Directive

open Stencil.Text

theorem prefix_drop_of_unquotedClose?
    {quote : Option Char} {body : List Char} {close : Nat}
    (hclose : unquotedClose? quote body = some close) :
    closeMark <+: body.drop close := by
  fun_induction unquotedClose? quote body generalizing close with
  | case1 => simp at hclose
  | case2 => simp at hclose
  | case3 c q hbackslash escaped rest ih =>
      obtain ⟨later, hlater, rfl⟩ := Option.map_eq_some_iff.mp hclose
      exact ih hlater
  | case4 c rest q hbackslash ih =>
      obtain ⟨later, hlater, rfl⟩ := Option.map_eq_some_iff.mp hclose
      exact ih hlater
  | case5 c rest hquote ih =>
      obtain ⟨later, hlater, rfl⟩ := Option.map_eq_some_iff.mp hclose
      exact ih hlater
  | case6 c rest hquote hbegins =>
      simp only [Option.some.injEq] at hclose
      subst close
      exact List.isPrefixOf_iff_prefix.mp hbegins
  | case7 c rest hquote hbegins ih =>
      obtain ⟨later, hlater, rfl⟩ := Option.map_eq_some_iff.mp hclose
      exact ih hlater

theorem prefix_drop_of_closePosition?
    {body : List Char} {close : Nat}
    (hclose : closePosition? body = some close) :
    closeMark <+: body.drop close := by
  rcases Option.or_eq_some_iff.mp hclose with hunquoted | ⟨_, hplain⟩
  · exact prefix_drop_of_unquotedClose? hunquoted
  · exact prefix_drop_of_indexOf? hplain

/-- Quotes decide where a directive ends, but not whether it ends. -/
theorem isSome_closePosition?_iff {body : List Char} :
    (closePosition? body).isSome ↔ closeMark <:+: body := by
  constructor
  · intro hsome
    obtain ⟨close, hclose⟩ := Option.isSome_iff_exists.mp hsome
    exact (prefix_drop_of_closePosition? hclose).isInfix.trans (List.drop_suffix close body).isInfix
  · intro hinfix
    have hplain : (indexOf? closeMark body).isSome := isSome_indexOf?_iff.mpr hinfix
    simp [closePosition?, Option.isSome_or, hplain]

/-- A directive: the opening mark, something inside, and the closing mark. -/
def IsMarked (text : List Char) : Prop :=
  ∃ inside, text = openMark ++ inside ++ closeMark

def marked (inside : String) : List Char :=
  openMark ++ inside.toList ++ closeMark

theorem IsMarked.begins {text : List Char} (hmarked : IsMarked text) : openMark <+: text := by
  obtain ⟨inside, rfl⟩ := hmarked
  rw [List.append_assoc]
  exact List.prefix_append _ _

theorem IsMarked.ends {text : List Char} (hmarked : IsMarked text) : closeMark <:+ text := by
  obtain ⟨inside, rfl⟩ := hmarked
  exact List.suffix_append _ _

theorem IsMarked.length {text : List Char} (hmarked : IsMarked text) : 4 ≤ text.length := by
  obtain ⟨inside, rfl⟩ := hmarked
  simp only [List.length_append, openMark, closeMark, List.length_cons, List.length_nil]
  omega

theorem openMark_fits
    {text : List Char} {place : Nat} (hopen : openMark <+: text.drop place) :
    place + 2 ≤ text.length := by
  have hlength := hopen.length_le
  simp only [openMark, List.length_cons, List.length_nil, List.length_drop] at hlength
  omega

theorem exists_marked
    {text : List Char} {close : Nat} (hopen : openMark <+: text)
    (hclose : closeMark <+: (text.drop 2).drop close) :
    ∃ inside after, text = openMark ++ inside ++ closeMark ++ after ∧ inside.length = close := by
  obtain ⟨body, rfl⟩ := hopen
  have hbody : closeMark <+: body.drop close := by simpa [openMark] using hclose
  obtain ⟨after, hafter⟩ := hbody
  have hlength : close ≤ body.length := by
    by_contra hlt
    have hnil : body.drop close = [] := List.drop_eq_nil_of_le (by omega)
    rw [hnil] at hafter
    simp [closeMark] at hafter
  refine ⟨body.take close, after, ?_, by simp [hlength]⟩
  calc
    openMark ++ body = openMark ++ (body.take close ++ body.drop close) := by
      rw [List.take_append_drop]
    _ = openMark ++ (body.take close ++ (closeMark ++ after)) := by rw [hafter]
    _ = openMark ++ body.take close ++ closeMark ++ after := by simp only [List.append_assoc]

/-- A later opening mark stands before the close that was found first, so a close follows it. -/
theorem isSome_closePosition?_inner
    {text : List Char} {close inner : Nat}
    (hclose : closePosition? (text.drop 2) = some close)
    (hinner : lastIndexOf? openMark ((text.drop 1).take (close + 1)) = some inner) :
    (closePosition? (text.drop (inner + 3))).isSome := by
  have hfits := openMark_fits (prefix_drop_of_lastIndexOf? hinner)
  rw [List.length_take, List.length_drop] at hfits
  have hlater : (text.drop 2).drop close <:+ text.drop (inner + 3) := by
    rw [List.drop_drop]
    exact List.drop_suffix_drop_left text (by omega)
  rw [isSome_closePosition?_iff]
  exact (prefix_drop_of_closePosition? hclose).isInfix.trans hlater.isInfix

/-- The directive begins with the first opening mark and ends with its close, or it begins with the
last opening mark before that and ends with the close of this one. -/
theorem innermost?_eq_some_iff {text : List Char} {span : Span} :
    innermost? text = some span ↔
      ∃ close, closePosition? (text.drop 2) = some close ∧
        (lastIndexOf? openMark ((text.drop 1).take (close + 1)) = none ∧ span = ⟨0, close⟩ ∨
          ∃ inner second, lastIndexOf? openMark ((text.drop 1).take (close + 1)) = some inner ∧
            closePosition? (text.drop (inner + 3)) = some second ∧ span = ⟨inner + 1, second⟩) := by
  rw [innermost?, Option.bind_eq_bind, Option.bind_eq_some_iff]
  refine exists_congr fun close => and_congr_right fun _ => ?_
  cases lastIndexOf? openMark ((text.drop 1).take (close + 1)) with
  | none => simp [@eq_comm _ _ span]
  | some inner => simp [Option.bind_eq_some_iff, @eq_comm _ _ span]

theorem exists_eq_append_of_innermost?
    {text : List Char} {span : Span} (hopen : openMark <+: text)
    (hspan : innermost? text = some span) :
    ∃ before inside after,
      text = before ++ (openMark ++ inside ++ closeMark ++ after) ∧
        before.length = span.offset ∧ inside.length = span.inside := by
  obtain ⟨close, hclose, ⟨-, rfl⟩ | ⟨inner, second, hinner, hsecond, rfl⟩⟩ :=
    innermost?_eq_some_iff.mp hspan
  · obtain ⟨inside, after, htext, hinside⟩ :=
      exists_marked hopen (prefix_drop_of_closePosition? hclose)
    exact ⟨[], inside, after, htext, rfl, hinside⟩
  · have hlater : openMark <+: text.drop (inner + 1) := by
      have htake := prefix_drop_of_lastIndexOf? hinner
      rw [List.drop_take, List.drop_drop] at htake
      rw [Nat.add_comm]
      exact htake.trans <| List.take_prefix _ _
    have hmark : closeMark <+: ((text.drop (inner + 1)).drop 2).drop second := by
      have hdrop : (text.drop (inner + 1)).drop 2 = text.drop (inner + 3) := by
        rw [List.drop_drop]
      rw [hdrop]
      exact prefix_drop_of_closePosition? hsecond
    obtain ⟨inside, after, htext, hinside⟩ := exists_marked hlater hmark
    have hlength : (text.take (inner + 1)).length = inner + 1 :=
      List.length_take_of_le (Nat.le_of_add_right_le (openMark_fits hlater))
    refine ⟨text.take (inner + 1), inside, after, ?_, hlength, hinside⟩
    rw [← htext, List.take_append_drop]

end Stencil.Directive
