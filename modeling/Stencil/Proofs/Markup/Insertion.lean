import Stencil.Proofs.Markup.Spaced

/-!
# A comment that is put into a document

A comment that is put into a document without comments and elements disappears again, unless the
document then holds an element: one that begins in the comment, or in a tag that is not closed
before it.
-/

namespace Stencil.Markup

open Stencil.Text

def commentEnd : List Char :=
  "-->".toList

def commentOf (body : List Char) : List Char :=
  commentMark ++ (body ++ commentEnd)

structure IsBody (body : List Char) : Prop where
  ordinary : ¬ ['['] <+: body
  declares : ¬ ['<', '!'] <+: body
  unended : ¬ commentEnd <:+: body

/-! ## Opening tags -/

/-- The opening tag of an element that is kept as it is. -/
def IsOpeningTag (tag : List Char) : Prop :=
  ∃ name ∈ verbatimNames, ∃ spelled inner, Spells name spelled ∧ wordEnds (inner ++ ['>']) ∧
    '>' ∉ inner ∧ tag = '<' :: (spelled ++ (inner ++ ['>']))

/-- The text holds neither a comment nor an opening tag. -/
structure IsPlain (text : List Char) : Prop where
  comment : ¬ commentMark <:+: text
  tag : ∀ tag, IsOpeningTag tag → ¬ tag <:+: text

theorem exists_of_tagRestWidth? {text : List Char} {width : Nat}
    (hwidth : tagRestWidth? text = some width) :
    ∃ inner behind, '>' ∉ inner ∧ text = inner ++ '>' :: behind ∧ width = inner.length + 1 := by
  induction text generalizing width with
  | nil => contradiction
  | cons c rest ih =>
      rw [tagRestWidth?] at hwidth
      split at hwidth
      next hc =>
        obtain rfl := beq_iff_eq.mp hc
        obtain rfl := Option.some.inj hwidth
        exact ⟨[], rest, List.not_mem_nil, rfl, rfl⟩
      next hc =>
        obtain ⟨later, hlater, rfl⟩ := Option.map_eq_some_iff.mp hwidth
        obtain ⟨inner, behind, hinner, rfl, rfl⟩ := ih hlater
        refine ⟨c :: inner, behind, ?_, rfl, rfl⟩
        rw [List.mem_cons, not_or]
        exact ⟨fun heq => hc (beq_iff_eq.mpr heq.symm), hinner⟩

theorem wordEnds_append_cons (inner : List Char) (c : Char) (behind : List Char) :
    wordEnds (inner ++ c :: behind) = wordEnds (inner ++ [c]) := by
  cases inner <;> rfl

theorem exists_openingTag
    {text : List Char} {hit : Hit Unit} (hfound : verbatimElement? text = some hit) :
    ∃ tag, IsOpeningTag tag ∧ tag <+: text ∧ tag.length ≤ hit.width := by
  unfold verbatimElement? at hfound
  split at hfound
  next rest =>
    obtain ⟨width, hwidth, rfl⟩ := Option.map_eq_some_iff.mp hfound
    obtain ⟨name, hname, hwidth⟩ := List.exists_of_findSome?_eq_some hwidth
    rw [elementRestWidth?] at hwidth
    simp only [Option.bind_eq_bind, Option.bind_eq_some_iff] at hwidth
    obtain ⟨rest', hafter, hwidth⟩ := hwidth
    obtain ⟨spelled, hspells, rfl⟩ := afterWord?_eq_some_iff.mp hafter
    split at hwidth
    next hends =>
      simp only [Option.bind_eq_some_iff, Option.some.injEq] at hwidth
      obtain ⟨tagWidth, htag, contentWidth, -, rfl⟩ := hwidth
      obtain ⟨inner, behind, hinner, rfl, rfl⟩ := exists_of_tagRestWidth? htag
      rw [wordEnds_append_cons] at hends
      refine ⟨_, ⟨name, hname, spelled, inner, hspells, hends, hinner, rfl⟩, ⟨behind, ?_⟩, ?_⟩
      · simp
      · simp only [List.length_cons, List.length_append, List.length_nil, hspells.length_eq]
        omega
    next => contradiction
  next => contradiction

theorem IsOpeningTag.eq_concat {tag : List Char} (htag : IsOpeningTag tag) :
    ∃ front, '>' ∉ front ∧ tag = front ++ ['>'] := by
  obtain ⟨name, hname, spelled, inner, hspells, -, hinner, rfl⟩ := htag
  refine ⟨'<' :: (spelled ++ inner), ?_, by simp⟩
  have hlower : name.all Char.isLower := by
    have hnames : ∀ name ∈ verbatimNames, name.all Char.isLower := by decide
    exact hnames name hname
  have hspelled : '>' ∉ spelled := by
    intro hmem
    have hword := hspells.all_isWord hlower '>' hmem
    contradiction
  simp [hspelled, hinner]

theorem hits_verbatimElement?_eq_nil
    {text : List Char} (htext : ∀ tag, IsOpeningTag tag → ¬ tag <:+: text) :
    hits verbatimElement? text = [] := by
  rw [hits_eq_nil_iff]
  intro tail htail _
  rw [List.append_nil, Option.eq_none_iff_forall_ne_some]
  intro hit hfound
  obtain ⟨tag, htag, hbegins, -⟩ := exists_openingTag hfound
  exact htext tag htag (hbegins.isInfix.trans htail.isInfix)

/-! ## Documents without elements -/

theorem minify_of_hits_eq_nil {text : List Char} (hhits : hits verbatimElement? text = []) :
    minify text = trim (tighten text) := by
  have hcut : cut verbatimElement? text = [.plain text] := by
    have hidle : Idle verbatimElement? text [] := hits_eq_nil_iff.mp hhits
    have hcut := cut_append_of_idle hidle
    rw [List.append_nil] at hcut
    rw [hcut, cut, cutFrom, prepend, List.reverse_nil, List.append_nil]
  rw [minify_eq, hcut, writtenPieces, writtenPieces, joined_plain, joined_nil, List.append_nil,
    writtenStretch, if_pos rfl]

/-! ## Marks of comments -/

theorem exists_of_append_eq_append_cons
    {c : Char} {word rest left later : List Char} (hword : c ∉ word)
    (heq : word ++ rest = left ++ c :: later) :
    ∃ between, left = word ++ between ∧ rest = between ++ c :: later := by
  rcases List.append_eq_append_iff.mp heq with ⟨between, hleft, hrest⟩ | ⟨between, hleft, hlater⟩
  · exact ⟨between, hleft, hrest⟩
  · cases between with
    | nil =>
        refine ⟨[], ?_, hlater.symm⟩
        rw [hleft, List.append_nil, List.append_nil]
    | cons d between =>
        obtain ⟨rfl, -⟩ := List.cons.inj hlater
        exact absurd (hleft ▸ List.mem_append_right left List.mem_cons_self) hword

/-- No mark begins before a mark and reaches into it. -/
theorem not_prefix_append_mark
    {front : List Char} (hnonempty : front ≠ []) (hfront : ¬ commentMark <:+: front)
    (behind : List Char) : ¬ commentMark <+: front ++ (commentMark ++ behind) := by
  rintro ⟨rest, heq⟩
  obtain ⟨d, front, rfl⟩ := List.exists_cons_of_ne_nil hnonempty
  obtain ⟨rfl, hmark⟩ := List.cons.inj heq
  obtain ⟨between, rfl, -⟩ := exists_of_append_eq_append_cons (by decide) hmark
  exact hfront ⟨[], between, rfl⟩

/-- A word that ends in a character reaches into no text without that character. -/
theorem infix_of_concat_infix_append
    {c : Char} {word text more : List Char} (hmore : c ∉ more)
    (hoccurs : word ++ [c] <:+: text ++ more) : word ++ [c] <:+: text := by
  obtain ⟨front, back, heq⟩ := hoccurs
  rcases List.append_eq_append_iff.mp heq with ⟨left, rfl, -⟩ | ⟨left, hleft, rfl⟩
  · exact ⟨front, left, rfl⟩
  · obtain rfl | ⟨left, d, rfl⟩ := left.eq_nil_or_concat
    · exact ⟨front, [], by rw [List.append_nil, hleft, List.append_nil]⟩
    · rw [List.concat_eq_append, ← List.append_assoc, ← List.append_assoc] at hleft
      obtain rfl : c = d := List.singleton_injective (List.append_inj' hleft rfl).2
      exact absurd (List.mem_append_left back (by simp)) hmore

theorem IsBody.not_infix_append {body : List Char} (hbody : IsBody body) :
    ¬ commentEnd <:+: body ++ commentEnd.dropLast := by
  have hend : commentEnd = ['-', '-'] ++ ['>'] := rfl
  rw [hend]
  intro hoccurs
  exact hbody.unended (infix_of_concat_infix_append (by decide) hoccurs)

theorem IsBody.isCommentRest_append {body : List Char} (hbody : IsBody body) (after : List Char) :
    IsCommentRest (body ++ (commentEnd ++ after)) := by
  rw [← List.append_assoc]
  apply IsCommentRest.append
  refine ⟨?_, ?_, (List.suffix_append body commentEnd).isInfix⟩
  · intro hordinary
    cases body with
    | nil => contradiction
    | cons c body =>
        obtain ⟨rfl, -⟩ := List.cons_prefix_cons.mp hordinary
        exact hbody.ordinary (List.prefix_append _ _)
  · intro hdeclares
    match body with
    | [] => contradiction
    | [c] =>
        obtain ⟨-, hlater⟩ := List.cons_prefix_cons.mp hdeclares
        contradiction
    | c :: d :: body =>
        obtain ⟨rfl, hlater⟩ := List.cons_prefix_cons.mp hdeclares
        obtain ⟨rfl, -⟩ := List.cons_prefix_cons.mp hlater
        exact hbody.declares (List.prefix_append _ _)

theorem IsBody.comment?_append {body : List Char} (hbody : IsBody body) (after : List Char) :
    comment? (commentOf body ++ after) = some ⟨(commentOf body).length, ()⟩ := by
  have htext : commentOf body ++ after = commentMark ++ (body ++ (commentEnd ++ after)) := by
    simp only [commentOf, List.append_assoc]
  have hafter : after? "<!--".toList (commentMark ++ (body ++ (commentEnd ++ after))) =
      some (body ++ (commentEnd ++ after)) := after?_eq_some_iff.mpr rfl
  have hindex : indexOf? "-->".toList (body ++ (commentEnd ++ after)) = some body.length :=
    indexOf?_append_of_first hbody.not_infix_append after
  have hrest := hbody.isCommentRest_append after
  have hlength : (commentOf body).length = 4 + body.length + 3 := by
    simp [commentOf, commentMark, commentEnd]
    omega
  rw [htext, comment?, hafter, hlength]
  simp only [Option.bind_eq_bind, Option.bind_some, Bool.or_eq_true, List.isPrefixOf_iff_prefix]
  rw [if_neg (not_or.mpr ⟨hrest.ordinary, hrest.declares⟩), hindex]
  rfl

theorem idle_comment?_append_mark
    {before : List Char} (hbefore : ¬ commentMark <:+: before) (behind : List Char) :
    Idle comment? before (commentMark ++ behind) := by
  intro tail htail hnonempty
  rw [← Option.not_isSome_iff_eq_none, isSome_comment?_iff]
  rintro ⟨rest, hrest, -⟩
  refine not_prefix_append_mark hnonempty (fun hmark => hbefore ?_) behind ⟨rest, hrest.symm⟩
  exact hmark.trans htail.isInfix

theorem remove_comment?_append
    {before body after : List Char} (hbefore : ¬ commentMark <:+: before) (hbody : IsBody body)
    (hafter : ¬ commentMark <:+: after) :
    remove comment? (before ++ (commentOf body ++ after)) = before ++ after := by
  have hidle : Idle comment? before (commentOf body ++ after) := by
    rw [commentOf, List.append_assoc]
    exact idle_comment?_append_mark hbefore _
  have hnonempty : commentOf body ≠ [] := List.cons_ne_nil _ _
  have hrest : remove comment? (commentOf body ++ after) = remove comment? after := by
    rw [remove, cut_append_of_some hnonempty (hbody.comment?_append after)]
    rfl
  rw [remove_append_of_idle hidle, hrest, remove_eq_self_of_hits (hits_comment?_eq_nil hafter)]

/-! ## A mark that stays -/

/-- An element that begins before a mark and ends behind it holds the mark, unless its opening tag
ends before the mark. -/
theorem mark_infix_of_tag
    {tag before behind : List Char} (htag : IsOpeningTag tag) (hbefore : ¬ tag <:+: before)
    (hbegins : tag <+: before ++ (commentMark ++ behind)) : commentMark <:+: tag := by
  rw [← List.append_assoc] at hbegins
  rcases List.prefix_or_prefix_of_prefix hbegins (List.prefix_append _ behind) with hshort | hlong
  · obtain ⟨front, -, rfl⟩ := htag.eq_concat
    exact absurd (infix_of_concat_infix_append (by decide) hshort.isInfix) hbefore
  · exact (List.suffix_append before commentMark).isInfix.trans hlong.isInfix

theorem mark_infix_of_tidy {text : List Char}
    (hmark : commentMark <:+: tidy closesTag opensTag text) : commentMark <:+: text := by
  obtain ⟨before, behind, hsplit⟩ := hmark
  have hsuffix : '<' :: (['!', '-', '-'] ++ behind) <:+ tidy closesTag opensTag text :=
    ⟨before, by rw [← hsplit, List.append_assoc]; rfl⟩
  obtain ⟨tail, htail, heq⟩ := exists_suffix_of_tidy rfl rfl hsuffix
  obtain ⟨rest, rfl, -⟩ := exists_eq_append_of_tidy_eq_append visible_opensTag
    (fun _ => kept_of_mem_mark) heq.symm
  exact List.IsInfix.trans ⟨[], rest, rfl⟩ htail.isInfix

theorem IsPlain.not_mark_infix_minify {text : List Char} (hplain : IsPlain text) :
    ¬ commentMark <:+: minify text := by
  have hnone := hits_comment?_eq_nil hplain.comment
  rw [minify_of_hits_eq_nil (hits_verbatimElement?_eq_nil hplain.tag), tighten_eq,
    remove_eq_self_of_hits hnone]
  exact fun hmark => hplain.comment (mark_infix_of_tidy (hmark.trans (trim_isInfix _)))

/-- A comment that is not closed stays where it is. -/
theorem mark_infix_writtenStretch
    {before part : List Char} (hbefore : ¬ commentMark <:+: before)
    (hpart : ¬ commentEnd <:+: part) (first : Bool) :
    commentMark <:+: writtenStretch first (before ++ (commentMark ++ part)) := by
  have hopen : Idle comment? (commentMark ++ part) [] := by
    intro tail htail _
    rw [List.append_nil, ← Option.not_isSome_iff_eq_none, isSome_comment?_iff]
    rintro ⟨rest, rfl, hrest⟩
    have hlength := htail.length_le
    have hbehind : rest <:+ commentMark ++ part := (List.suffix_append _ rest).trans htail
    have hinside : rest <:+ part := by
      refine List.suffix_of_suffix_length_le hbehind (List.suffix_append _ part) ?_
      simp only [commentMark, List.length_append] at hlength
      exact Nat.add_le_add_iff_left.mp hlength
    exact hpart (hrest.ends.trans hinside.isInfix)
  have hhits : hits comment? (before ++ (commentMark ++ part)) = [] := by
    rw [hits_eq_nil_iff]
    refine Idle.append ?_ hopen
    rw [List.append_nil]
    exact idle_comment?_append_mark hbefore part
  have hmark : commentMark <:+: before ++ (commentMark ++ part) := ⟨before, part, by simp⟩
  have hvisible : ∀ c ∈ commentMark, isBlank c = false :=
    List.forall_mem_cons.mpr ⟨rfl, fun _ hc => (kept_of_mem_mark hc).1⟩
  rw [writtenStretch_eq_spaced hhits]
  exact infix_spaced hvisible hmark _

theorem exists_first_element
    {document : List Char} (hhits : hits verbatimElement? document ≠ []) :
    ∃ stretch element later,
      cut verbatimElement? document = .plain stretch :: .hit element () :: later ∧
      document = stretch ++ (element ++ joined later) ∧
      ∃ tag, IsOpeningTag tag ∧ tag <+: element := by
  have halternates : Alternates (cut verbatimElement? document) := alternates_cut document
  have hsettled := settled_cut bounded_verbatimElement? document
  have hjoined : joined (cut verbatimElement? document) = document := flatMap_text_cut _ _
  rw [hits] at hhits
  generalize cut verbatimElement? document = pieces at halternates hsettled hhits hjoined
  cases halternates with
  | last stretch => exact absurd rfl hhits
  | next stretch element value hrest =>
      cases hsettled with
      | plain _ hsettled =>
          cases hsettled with
          | hit _ hfound _ =>
              obtain ⟨tag, htag, hbegins, hlength⟩ := exists_openingTag hfound
              exact ⟨stretch, element, _, rfl, hjoined.symm, tag, htag,
                List.prefix_of_prefix_length_le hbegins (List.prefix_append element _) hlength⟩

/-- An element in the document either holds the mark of the comment, or begins in the body. -/
theorem mark_infix_or_part
    {before body after stretch element rest : List Char} (hplain : IsPlain (before ++ after))
    (htag : ∃ tag, IsOpeningTag tag ∧ tag <+: element)
    (htext : before ++ (commentOf body ++ after) = stretch ++ (element ++ rest)) :
    commentMark <:+: element ∨
      ∃ part, part <+: body ∧ stretch = before ++ (commentMark ++ part) := by
  obtain ⟨tag, htag, hbegins⟩ := htag
  have hnone {text : List Char} (hoccurs : text <:+: before ++ after) : ¬ tag <:+: text :=
    fun htext => hplain.tag tag htag (htext.trans hoccurs)
  obtain ⟨inner, helement⟩ : ∃ inner, element = '<' :: inner := by
    obtain ⟨name, -, spelled, inner, -, -, -, rfl⟩ := htag
    obtain ⟨behind, rfl⟩ := hbegins
    exact ⟨_, rfl⟩
  have hholds {left behind : List Char} (hleft : left <:+: before ++ after)
      (heq : element ++ rest = left ++ (commentMark ++ behind)) : commentMark <:+: element := by
    have hreaches : tag <+: left ++ (commentMark ++ behind) :=
      heq ▸ hbegins.trans (List.prefix_append element rest)
    exact (mark_infix_of_tag htag (hnone hleft) hreaches).trans hbegins.isInfix
  simp only [commentOf, List.append_assoc] at htext
  rcases List.append_eq_append_iff.mp htext with ⟨left, rfl, hleft⟩ | ⟨left, rfl, hleft⟩
  · cases left with
    | nil =>
        have hempty : [] <:+: before ++ after := List.nil_infix
        exact .inl (hholds hempty hleft.symm)
    | cons c left =>
        rw [helement] at hleft
        obtain ⟨rfl, hmark⟩ := List.cons.inj hleft
        obtain ⟨part, rfl, hbody⟩ := exists_of_append_eq_append_cons (by decide) hmark
        refine .inr ⟨part, ?_, rfl⟩
        rcases List.append_eq_append_iff.mp hbody with ⟨front, -, hend⟩ | ⟨front, rfl, -⟩
        · obtain ⟨between, -, rfl⟩ := exists_of_append_eq_append_cons (by decide) hend
          refine absurd hbegins.isInfix fun hoccurs => hnone ?_ hoccurs
          rw [helement]
          exact ⟨before ++ between, rest, by simp⟩
        · exact List.prefix_append part front
  · exact .inl (hholds ⟨stretch, after, rfl⟩ hleft)

/-- If the document with the comment holds an element, it is written with the mark of the
comment. -/
theorem mark_infix_minify
    {before body after : List Char} (hplain : IsPlain (before ++ after)) (hbody : IsBody body)
    (hhits : hits verbatimElement? (before ++ (commentOf body ++ after)) ≠ []) :
    commentMark <:+: minify (before ++ (commentOf body ++ after)) := by
  have hbefore : ¬ commentMark <:+: before := fun hmark =>
    hplain.comment (hmark.trans (List.prefix_append before after).isInfix)
  obtain ⟨stretch, element, later, hcut, htext, htag⟩ := exists_first_element hhits
  rw [minify_eq, hcut, writtenPieces, writtenPieces, joined_plain, joined_hit]
  rcases mark_infix_or_part hplain htag htext with helement | ⟨part, ⟨rest, rfl⟩, rfl⟩
  · exact (helement.trans (List.prefix_append _ _).isInfix).trans (List.suffix_append _ _).isInfix
  · have hpart : ¬ commentEnd <:+: part := fun hend =>
      hbody.unended (hend.trans (List.prefix_append part rest).isInfix)
    exact (mark_infix_writtenStretch hbefore hpart true).trans (List.prefix_append _ _).isInfix

/-- A comment that is put into a document without comments and elements changes nothing exactly if
the document then holds no element. -/
theorem minify_append_comment_eq_iff
    {before body after : List Char} (hplain : IsPlain (before ++ after)) (hbody : IsBody body) :
    minify (before ++ (commentOf body ++ after)) = minify (before ++ after) ↔
      hits verbatimElement? (before ++ (commentOf body ++ after)) = [] := by
  constructor
  · intro hsame
    by_contra hhits
    have hmark := mark_infix_minify hplain hbody hhits
    rw [hsame] at hmark
    exact hplain.not_mark_infix_minify hmark
  · intro hhits
    have hbefore : ¬ commentMark <:+: before := fun hmark =>
      hplain.comment (hmark.trans (List.prefix_append before after).isInfix)
    have hafter : ¬ commentMark <:+: after := fun hmark =>
      hplain.comment (hmark.trans (List.suffix_append before after).isInfix)
    rw [minify_of_hits_eq_nil hhits,
      minify_of_hits_eq_nil (hits_verbatimElement?_eq_nil hplain.tag), tighten_eq, tighten_eq,
      remove_comment?_append hbefore hbody hafter,
      remove_eq_self_of_hits (hits_comment?_eq_nil hplain.comment)]

theorem isPlain_of_not_mem {text : List Char} (hmark : '!' ∉ text) (hbracket : '>' ∉ text) :
    IsPlain text where
  comment := fun hoccurs => hmark (hoccurs.subset (by decide))
  tag := by
    rintro tag htag hoccurs
    obtain ⟨front, -, rfl⟩ := htag.eq_concat
    exact hbracket (hoccurs.subset (List.mem_append_right front List.mem_cons_self))

theorem isBody_of_not_mem
    {body : List Char} (hfirst : body.head? = some ' ') (hdash : '-' ∉ body) : IsBody body := by
  obtain ⟨rest, rfl⟩ := List.head?_eq_some_iff.mp hfirst
  exact ⟨by simp, by simp, fun hoccurs => hdash (hoccurs.subset (by decide))⟩

theorem minify_append_comment_eq_iff_of_unclosed :
    IsPlain ("a <pre ".toList ++ " c".toList) ∧ IsBody " b <i> ".toList ∧
      (minify ("a <pre ".toList ++ (commentOf " b <i> ".toList ++ " c".toList)) =
          minify ("a <pre ".toList ++ " c".toList) ↔
        hits verbatimElement? ("a <pre ".toList ++ (commentOf " b <i> ".toList ++ " c".toList)) =
          []) := by
  have hplain : IsPlain ("a <pre ".toList ++ " c".toList) :=
    isPlain_of_not_mem (by decide +kernel) (by decide +kernel)
  have hbody : IsBody " b <i> ".toList := isBody_of_not_mem rfl (by decide +kernel)
  exact ⟨hplain, hbody, minify_append_comment_eq_iff hplain hbody⟩

/-- An element in the comment is kept, and the marks of the comment with it. -/
theorem minify_append_comment_ne_of_element :
    IsPlain ("a".toList ++ "c".toList) ∧ IsBody " <pre>b</pre> ".toList ∧
      minify ("a".toList ++ (commentOf " <pre>b</pre> ".toList ++ "c".toList)) =
        "a<!--<pre>b</pre>-->c".toList ∧
      minify ("a".toList ++ "c".toList) = "ac".toList :=
  ⟨isPlain_of_not_mem (by decide +kernel) (by decide +kernel),
    isBody_of_not_mem rfl (by decide +kernel), by decide +kernel, by decide +kernel⟩

end Stencil.Markup
