import Stencil.Directive.HostCode
import Stencil.Proofs.Text.Blank
import Stencil.Proofs.Text.Search
import Stencil.Proofs.Text.Word

/-!
# The form of a loop clause

A loop clause names what it runs over, the word `as` between blanks, and one or two names with their
sigils.  What it runs over is as short as the clause allows, so it takes none of the blanks before
the word.
-/

namespace Stencil.Directive

open Stencil.Text

/-- An ASCII letter, and after it word characters. -/
def IsName (name : List Char) : Prop :=
  ∃ c rest, name = c :: rest ∧ c.isAlpha ∧ ∀ d ∈ rest, isWord d

/-- What follows the first name: nothing, or an arrow and the second name. -/
inductive SecondForm : Option (List Char) → List Char → Prop where
  | absent : SecondForm none []
  | present {gap gap' name : List Char}
      (hgap : AllBlank gap) (hgap' : AllBlank gap') (hname : IsName name) :
      SecondForm (some name) (gap ++ (['=', '>'] ++ (gap' ++ '$' :: name)))

/-- What follows the thing that a loop runs over. -/
inductive BoundForm : List Char → Option (List Char) → List Char → Prop where
  | names {gap gap' first tail : List Char} {second : Option (List Char)}
      (hgap : AllBlank gap) (hgapNonempty : gap ≠ [])
      (hgap' : AllBlank gap') (hgapNonempty' : gap' ≠ [])
      (hfirst : IsName first) (hsecond : SecondForm second tail) :
      BoundForm first second (gap ++ (['a', 's'] ++ (gap' ++ '$' :: (first ++ tail))))

theorem BoundForm.isName_first
    {first tail : List Char} {second : Option (List Char)} (hbound : BoundForm first second tail) :
    IsName first := by
  cases hbound with
  | names _ _ _ _ hfirst _ => exact hfirst

theorem BoundForm.isName_second
    {first second tail : List Char} (hbound : BoundForm first (some second) tail) :
    IsName second := by
  cases hbound with
  | names _ _ _ _ _ hsecond =>
      cases hsecond with
      | present _ _ hname => exact hname

/-- The clause is written with these names and runs over this. -/
def LoopForm (clause : List Char) (loop : LoopClause) : Prop :=
  ∃ tail, clause = loop.iterable ++ tail ∧ loop.iterable ≠ [] ∧
    BoundForm loop.first loop.second tail

/-- Of all the ways to read a clause, this one runs over the least text. -/
def ShortestLoopForm (clause : List Char) (loop : LoopClause) : Prop :=
  LoopForm clause loop ∧
    ∀ other, LoopForm clause other → loop.iterable.length ≤ other.iterable.length

/-! ## Names -/

theorem IsName.all_isWord {name : List Char} (hname : IsName name) : ∀ c ∈ name, isWord c := by
  obtain ⟨c, rest, rfl, halpha, hrest⟩ := hname
  intro d hd
  rw [List.mem_cons] at hd
  rcases hd with rfl | hd
  · exact isAlpha_isWord halpha
  · exact hrest d hd

theorem sigilName?_eq_some_iff {text name rest : List Char} :
    sigilName? text = some (name, rest) ↔
      text = '$' :: (name ++ rest) ∧ IsName name ∧ ∀ c ∈ rest.head?, isWord c = false := by
  constructor
  · intro hname
    unfold sigilName? at hname
    split at hname
    next c later =>
      rw [Option.ite_none_right_eq_some] at hname
      obtain ⟨halpha, hname⟩ := hname
      simp only [Option.some.injEq, Prod.mk.injEq] at hname
      obtain ⟨rfl, rfl⟩ := hname
      refine ⟨?_, ⟨c, _, rfl, halpha, fun _ hd => List.mem_takeWhile_imp hd⟩, ?_⟩
      · rw [List.cons_append, List.takeWhile_append_dropWhile]
      · intro d hd
        have hnot := List.head?_dropWhile_not isWord later
        rw [hd] at hnot
        simpa using hnot
    next => contradiction
  · rintro ⟨rfl, ⟨c, later, rfl, halpha, hlater⟩, hrest⟩
    have htake : rest.takeWhile isWord = [] ∧ rest.dropWhile isWord = rest := by
      cases rest with
      | nil => simp
      | cons d rest =>
          have hd : isWord d = false := hrest d rfl
          simp [hd]
    rw [List.cons_append, sigilName?, if_pos halpha, List.takeWhile_append_of_pos hlater,
      List.dropWhile_append_of_pos hlater, htake.1, htake.2, List.append_nil]

theorem secondName?_eq_some_iff {text : List Char} {second : Option (List Char)} :
    secondName? text = some second ↔ SecondForm second text := by
  constructor
  · intro hsecond
    unfold secondName? at hsecond
    split at hsecond
    next hempty =>
      rw [Option.some.injEq] at hsecond
      subst second
      rw [List.isEmpty_iff.mp hempty]
      exact .absent
    next =>
      split at hsecond
      next => contradiction
      next rest harrow =>
        split at hsecond
        next name hname =>
          rw [Option.some.injEq] at hsecond
          subst second
          obtain ⟨hsigil, hname, _⟩ := sigilName?_eq_some_iff.mp hname
          obtain ⟨gap, hgap, _, htext⟩ := exists_eq_append_skipBlanks text
          obtain ⟨gap', hgap', _, hrest⟩ := exists_eq_append_skipBlanks rest
          rw [htext, after?_eq_some_iff.mp harrow, hrest, hsigil, List.append_nil]
          exact .present hgap hgap' hname
        next => contradiction
  · intro hform
    cases hform with
    | absent => rfl
    | @present gap gap' name hgap hgap' hname =>
      have hskip : skipBlanks (gap ++ (['=', '>'] ++ (gap' ++ '$' :: name))) =
          ['=', '>'] ++ (gap' ++ '$' :: name) :=
        skipBlanks_append hgap (noBlankFirst_cons rfl)
      have hskip' : skipBlanks (gap' ++ '$' :: name) = '$' :: name :=
        skipBlanks_append hgap' (noBlankFirst_cons rfl)
      have hsigil : sigilName? ('$' :: name) = some (name, []) :=
        sigilName?_eq_some_iff.mpr ⟨by rw [List.append_nil], hname, by simp⟩
      have hnonempty : (gap ++ (['=', '>'] ++ (gap' ++ '$' :: name))).isEmpty = false := by
        simp
      rw [secondName?, hnonempty, if_neg Bool.false_ne_true, hskip,
        after?_eq_some_iff.mpr rfl]
      simp only [hskip', hsigil]

theorem SecondForm.not_isWord_head {second : Option (List Char)} {tail : List Char}
    (hsecond : SecondForm second tail) : ∀ c ∈ tail.head?, isWord c = false := by
  cases hsecond with
  | absent => simp
  | @present gap gap' name hgap hgap' hname =>
    intro c hc
    cases gap with
    | nil =>
        simp only [List.nil_append, List.cons_append, List.head?_cons, Option.mem_some_iff] at hc
        subst c
        decide
    | cons d gap =>
        simp only [List.cons_append, List.head?_cons, Option.mem_some_iff] at hc
        subst c
        exact isWord_eq_false_of_isBlank (hgap d List.mem_cons_self)

theorem boundNames?_eq (text : List Char) :
    boundNames? text =
      if blankWidth text = 0 then none
      else
        (after? ['a', 's'] (skipBlanks text)).bind fun rest =>
          if blankWidth rest = 0 then none
          else
            (sigilName? (skipBlanks rest)).bind fun named =>
              (secondName? named.2).map fun second => (named.1, second) := by
  unfold boundNames?
  split
  next => rfl
  next =>
    change Option.bind _ _ = _
    congr 1
    funext rest
    split
    next => rfl
    next =>
      change Option.bind _ _ = _
      congr 1
      funext named
      exact Option.map_eq_bind.symm

theorem boundNames?_eq_some_iff
    {text first : List Char} {second : Option (List Char)} :
    boundNames? text = some (first, second) ↔ BoundForm first second text := by
  rw [boundNames?_eq]
  constructor
  · intro hnames
    rw [Option.ite_none_left_eq_some] at hnames
    obtain ⟨hwidth, hnames⟩ := hnames
    obtain ⟨rest, hword, hnames⟩ := Option.bind_eq_some_iff.mp hnames
    rw [Option.ite_none_left_eq_some] at hnames
    obtain ⟨hwidth', hnames⟩ := hnames
    obtain ⟨⟨name, tail⟩, hname, hnames⟩ := Option.bind_eq_some_iff.mp hnames
    simp only [Option.map_eq_some_iff, Prod.mk.injEq, exists_eq_right_right] at hnames
    obtain ⟨hsecond, rfl⟩ := hnames
    obtain ⟨gap, hgap, hlength, htext⟩ := exists_eq_append_skipBlanks text
    obtain ⟨gap', hgap', hlength', hrest⟩ := exists_eq_append_skipBlanks rest
    obtain ⟨hsigil, hname, _⟩ := sigilName?_eq_some_iff.mp hname
    rw [htext, after?_eq_some_iff.mp hword, hrest, hsigil]
    refine .names hgap ?_ hgap' ?_ hname (secondName?_eq_some_iff.mp hsecond)
    · rintro rfl
      exact hwidth hlength.symm
    · rintro rfl
      exact hwidth' hlength'.symm
  · intro hform
    obtain @⟨gap, gap', _, tail, _, hgap, hgapNonempty, hgap', hgapNonempty', hfirst, hsecond⟩ :=
      hform
    have hword : NoBlankFirst (['a', 's'] ++ (gap' ++ '$' :: (first ++ tail))) :=
      noBlankFirst_cons rfl
    have hsigil : NoBlankFirst ('$' :: (first ++ tail)) := noBlankFirst_cons rfl
    rw [blankWidth_append hgap hword, skipBlanks_append hgap hword,
      if_neg (mt List.length_eq_zero_iff.mp hgapNonempty), after?_eq_some_iff.mpr rfl,
      Option.bind_some, blankWidth_append hgap' hsigil, skipBlanks_append hgap' hsigil,
      if_neg (mt List.length_eq_zero_iff.mp hgapNonempty'),
      sigilName?_eq_some_iff.mpr ⟨rfl, hfirst, hsecond.not_isWord_head⟩, Option.bind_some,
      secondName?_eq_some_iff.mpr hsecond]
    rfl

/-! ## The clause -/

/-- The search passes over what it cannot read on from, and takes the first place where it can. -/
theorem loopClauseFrom?_eq_some
    {held text : List Char} {loop : LoopClause} (hloop : loopClauseFrom? held text = some loop) :
    ∃ passed tail,
      text = passed ++ tail ∧ passed ≠ [] ∧ loop.iterable = held.reverse ++ passed ∧
        BoundForm loop.first loop.second tail ∧
        ∀ shorter later first second,
          text = shorter ++ later → shorter ≠ [] → BoundForm first second later →
            passed.length ≤ shorter.length := by
  induction text generalizing held with
  | nil => simp [loopClauseFrom?] at hloop
  | cons c rest ih =>
      rw [loopClauseFrom?] at hloop
      cases hnames : boundNames? rest with
      | some names =>
          obtain ⟨first, second⟩ := names
          simp only [hnames, Option.some.injEq] at hloop
          subst loop
          refine ⟨[c], rest, rfl, by simp, by simp, boundNames?_eq_some_iff.mp hnames, ?_⟩
          intro shorter _ _ _ _ hshorter _
          exact List.length_pos_iff.mpr hshorter
      | none =>
          simp only [hnames] at hloop
          obtain ⟨passed, tail, rfl, hpassed, hiterable, hbound, hleast⟩ := ih hloop
          refine ⟨c :: passed, tail, rfl, by simp, by simp [hiterable], hbound, ?_⟩
          intro shorter later first second htext hshorter hlater
          cases shorter with
          | nil => contradiction
          | cons d shorter =>
              rw [List.cons_append, List.cons.injEq] at htext
              have hnonempty : shorter ≠ [] := by
                rintro rfl
                rw [List.nil_append] at htext
                rw [htext.2, boundNames?_eq_some_iff.mpr hlater] at hnames
                contradiction
              exact Nat.succ_le_succ (hleast shorter later first second htext.2 hnonempty hlater)

theorem isSome_loopClauseFrom?
    {held passed tail first : List Char} {second : Option (List Char)}
    (hpassed : passed ≠ []) (hbound : BoundForm first second tail) :
    (loopClauseFrom? held (passed ++ tail)).isSome := by
  induction passed generalizing held with
  | nil => contradiction
  | cons c passed ih =>
      rw [List.cons_append, loopClauseFrom?]
      cases hnames : boundNames? (passed ++ tail) with
      | some names => rfl
      | none =>
          have hnonempty : passed ≠ [] := by
            rintro rfl
            rw [List.nil_append, boundNames?_eq_some_iff.mpr hbound] at hnames
            contradiction
          exact ih hnonempty

theorem isSome_loopClause?_iff {clause : List Char} :
    (loopClause? clause).isSome ↔ ∃ loop, LoopForm clause loop := by
  constructor
  · intro hsome
    obtain ⟨loop, hloop⟩ := Option.isSome_iff_exists.mp hsome
    obtain ⟨passed, tail, htext, hpassed, hiterable, hbound, _⟩ := loopClauseFrom?_eq_some hloop
    rw [List.reverse_nil, List.nil_append] at hiterable
    subst passed
    exact ⟨loop, tail, htext, hpassed, hbound⟩
  · rintro ⟨loop, tail, rfl, hnonempty, hbound⟩
    exact isSome_loopClauseFrom? hnonempty hbound

/-- A clause is read in the shortest way, if there is any. -/
theorem loopClause?_eq_some_iff {clause : List Char} {loop : LoopClause} :
    loopClause? clause = some loop ↔ ShortestLoopForm clause loop := by
  have hshortest {found : LoopClause} (hfound : loopClause? clause = some found) :
      ShortestLoopForm clause found := by
    obtain ⟨passed, tail, htext, hpassed, hiterable, hbound, hleast⟩ :=
      loopClauseFrom?_eq_some hfound
    rw [List.reverse_nil, List.nil_append] at hiterable
    subst passed
    refine ⟨⟨tail, htext, hpassed, hbound⟩, ?_⟩
    rintro other ⟨later, hother, hnonempty, hlater⟩
    exact hleast other.iterable later other.first other.second hother hnonempty hlater
  refine ⟨hshortest, fun hform => ?_⟩
  obtain ⟨found, hfound⟩ :=
    Option.isSome_iff_exists.mp (isSome_loopClause?_iff.mpr ⟨loop, hform.1⟩)
  obtain ⟨hfoundForm, hfoundLeast⟩ := hshortest hfound
  have hlength : loop.iterable.length = found.iterable.length :=
    Nat.le_antisymm (hform.2 found hfoundForm) (hfoundLeast loop hform.1)
  obtain ⟨tail, htext, _, hbound⟩ := hform.1
  obtain ⟨tail', htext', _, hbound'⟩ := hfoundForm
  obtain ⟨hiterable, rfl⟩ := List.append_inj (htext.symm.trans htext') hlength
  have hnames := (boundNames?_eq_some_iff.mpr hbound).symm.trans
    (boundNames?_eq_some_iff.mpr hbound')
  rw [Option.some.injEq, Prod.mk.injEq] at hnames
  obtain ⟨iterable, first, second⟩ := loop
  obtain ⟨iterable', first', second'⟩ := found
  simp only at hiterable hnames
  rw [hfound, hiterable, hnames.1, hnames.2]

theorem exists_shortestLoopForm_iff {clause : List Char} :
    (∃ loop, ShortestLoopForm clause loop) ↔ ∃ loop, LoopForm clause loop := by
  simp only [← isSome_loopClause?_iff, Option.isSome_iff_exists, loopClause?_eq_some_iff]

theorem ShortestLoopForm.unique
    {clause : List Char} {loop loop' : LoopClause} (hloop : ShortestLoopForm clause loop)
    (hloop' : ShortestLoopForm clause loop') : loop = loop' := by
  rw [← loopClause?_eq_some_iff] at hloop hloop'
  exact Option.some.inj (hloop.symm.trans hloop')

end Stencil.Directive
