import Stencil.Markup.Element
import Stencil.Proofs.Text.Blank
import Stencil.Proofs.Text.Pieces
import Stencil.Proofs.Text.Word

/-!
# A reader of elements

A reader goes along the text behind an opening angle bracket.  It is closed at the end of the
closing tag if the bracket begins an element that is kept as it is.  The width of the element is the
number of characters that close the reader, so it does not depend on what follows the element.
-/

namespace Stencil.Markup

open Stencil.Text

/-- How far the reader has come in a closing tag. -/
inductive Ending where
  | text
  | bracket
  | name (left : List Char)
  deriving DecidableEq

/-- How far a reader has come in an element.  It is lost where no element began. -/
inductive Reader where
  | lost
  | name (spelled : List Char)
  | tag (spelled : List Char)
  | content (spelled : List Char) (ending : Ending)
  | closed
  deriving DecidableEq

/-- A closing tag that goes wrong may be followed by another one at once. -/
def Ending.restart (c : Char) : Ending :=
  if c = '<' then .bracket else .text

namespace Reader

def stepTag (spelled : List Char) (c : Char) : Reader :=
  if c = '>' then content spelled .text else tag spelled

def step : Reader → Char → Reader
  | lost, _ => lost
  | name spelled, c =>
    if isWord c then name (spelled ++ [c])
    else if spelled.map foldCase ∈ verbatimNames then stepTag spelled c
    else lost
  | tag spelled, c => stepTag spelled c
  | content spelled .text, c => content spelled (.restart c)
  | content spelled .bracket, c => content spelled (if c = '/' then .name spelled else .restart c)
  | content spelled (.name (d :: left)), c =>
    content spelled (if isWord c ∧ simpleLower c = simpleLower d then .name left else .restart c)
  | content spelled (.name []), c =>
    if c = '>' then closed else content spelled (if isBlank c then .name [] else .restart c)
  | closed, _ => closed

def read (reader : Reader) (text : List Char) : Reader :=
  text.foldl step reader

@[simp] theorem read_nil (reader : Reader) : reader.read [] = reader := rfl

@[simp] theorem read_cons (reader : Reader) (c : Char) (text : List Char) :
    reader.read (c :: text) = (reader.step c).read text := rfl

theorem read_append (reader : Reader) (first second : List Char) :
    reader.read (first ++ second) = (reader.read first).read second :=
  List.foldl_append

@[simp] theorem read_closed (text : List Char) : closed.read text = closed := by
  induction text with
  | nil => rfl
  | cons c text ih => exact ih

/-- How many characters of the text close the reader. -/
def width? (reader : Reader) : List Char → Option Nat
  | [] => if reader = closed then some 0 else none
  | c :: rest => if reader = closed then some 0 else ((reader.step c).width? rest).map (· + 1)

theorem width?_nil {reader : Reader} (hopen : reader ≠ closed) : reader.width? [] = none := by
  rw [width?, if_neg hopen]

theorem width?_cons {reader : Reader} (hopen : reader ≠ closed) (c : Char) (rest : List Char) :
    reader.width? (c :: rest) = ((reader.step c).width? rest).map (· + 1) := by
  rw [width?, if_neg hopen]

theorem width?_closed (text : List Char) : closed.width? text = some 0 := by
  cases text <;> rfl

theorem width?_lost (text : List Char) : lost.width? text = none := by
  induction text with
  | nil => rfl
  | cons c rest ih =>
      rw [width?_cons fun heq => by contradiction, step, ih]
      rfl

theorem isSome_width?_iff {reader : Reader} {text : List Char} :
    (reader.width? text).isSome ↔ reader.read text = closed := by
  induction text generalizing reader with
  | nil => by_cases hclosed : reader = closed <;> simp [width?, hclosed]
  | cons c rest ih =>
      by_cases hclosed : reader = closed
      · subst hclosed
        simp [width?_closed, step]
      · rw [width?_cons hclosed, Option.isSome_map, ih, read_cons]

theorem width?_le {reader : Reader} {text : List Char} {width : Nat}
    (hwidth : reader.width? text = some width) : width ≤ text.length := by
  induction text generalizing reader width with
  | nil =>
      rw [width?, Option.ite_none_right_eq_some, Option.some.injEq] at hwidth
      rw [← hwidth.2, List.length_nil]
  | cons c rest ih =>
      by_cases hclosed : reader = closed
      · rw [hclosed, width?_closed, Option.some.injEq] at hwidth
        rw [← hwidth]
        exact Nat.zero_le _
      · rw [width?_cons hclosed] at hwidth
        obtain ⟨later, hlater, rfl⟩ := Option.map_eq_some_iff.mp hwidth
        exact Nat.succ_le_succ (ih hlater)

theorem width?_append {reader : Reader} {found behind : List Char}
    (hwidth : reader.width? (found ++ behind) = some found.length) (behind' : List Char) :
    reader.width? (found ++ behind') = some found.length := by
  induction found generalizing reader with
  | nil =>
      have hclosed : reader = closed := by
        by_contra hopen
        cases behind with
        | nil => simp [width?_nil hopen] at hwidth
        | cons c behind => simp [width?_cons hopen] at hwidth
      rw [hclosed, width?_closed, List.length_nil]
  | cons c found ih =>
      by_cases hclosed : reader = closed
      · rw [hclosed, width?_closed] at hwidth
        simp at hwidth
      · rw [List.cons_append, width?_cons hclosed, List.length_cons,
          Option.map_eq_some_iff] at hwidth
        obtain ⟨later, hlater, heq⟩ := hwidth
        obtain rfl : later = found.length := Nat.succ.inj heq
        rw [List.cons_append, width?_cons hclosed, ih hlater]
        rfl

/-! ## What closes a reader -/

theorem step_eq_closed_iff {reader : Reader} {c : Char} :
    reader.step c = closed ↔
      reader = closed ∨ c = '>' ∧ ∃ spelled, reader = content spelled (.name []) := by
  cases reader with
  | lost => simp [step]
  | closed => simp [step]
  | name spelled => simp only [step, stepTag]; split <;> (try split) <;> (try split) <;> simp
  | tag spelled => simp only [step, stepTag]; split <;> simp
  | content spelled ending =>
      cases ending with
      | text => simp [step]
      | bracket => simp [step]
      | name left =>
          cases left with
          | nil => by_cases hc : c = '>' <;> simp [step, hc]
          | cons d left => simp [step]

theorem exists_concat_of_width? {reader : Reader} {found : List Char}
    (hopen : reader ≠ closed) (hwidth : reader.width? found = some found.length) :
    ∃ inner, found = inner ++ ['>'] := by
  induction found generalizing reader with
  | nil => simp [width?_nil hopen] at hwidth
  | cons c found ih =>
      rw [width?_cons hopen, List.length_cons, Option.map_eq_some_iff] at hwidth
      obtain ⟨later, hlater, heq⟩ := hwidth
      obtain rfl : later = found.length := Nat.succ.inj heq
      by_cases hclosed : reader.step c = closed
      · rw [hclosed, width?_closed, Option.some.injEq] at hlater
        obtain rfl := List.eq_nil_of_length_eq_zero hlater.symm
        rcases step_eq_closed_iff.mp hclosed with hbefore | ⟨rfl, -⟩
        · exact absurd hbefore hopen
        · exact ⟨[], rfl⟩
      · obtain ⟨inner, rfl⟩ := ih hclosed hlater
        exact ⟨c :: inner, rfl⟩

end Reader

/-! ## Closing tags -/

/-- The width of the rest of a closing tag, of whose name the given letters are left. -/
def closingRestWidth? (left text : List Char) : Option Nat := do
  let rest ← afterSameWord? left text
  let blanks := blankWidth rest
  match rest.drop blanks with
  | '>' :: _ => some (left.length + blanks + 1)
  | _ => none

theorem afterSameWord?_nil (text : List Char) : afterSameWord? [] text = some text := by
  simp [afterSameWord?]

theorem afterSameWord?_cons_nil (d : Char) (left : List Char) :
    afterSameWord? (d :: left) [] = none := by
  simp [afterSameWord?]

theorem afterSameWord?_cons_cons (d : Char) (left : List Char) (c : Char) (rest : List Char) :
    afterSameWord? (d :: left) (c :: rest) =
      if simpleLower c = simpleLower d then afterSameWord? left rest else none := by
  by_cases hsame : simpleLower c = simpleLower d
  · simp [afterSameWord?, hsame]
  · simp [afterSameWord?, List.isPrefixOf, hsame, Ne.symm hsame]

theorem closingRestWidth?_letter (d : Char) (left : List Char) (c : Char) (rest : List Char) :
    closingRestWidth? (d :: left) (c :: rest) =
      if simpleLower c = simpleLower d then (closingRestWidth? left rest).map (· + 1)
      else none := by
  rw [closingRestWidth?, afterSameWord?_cons_cons]
  split
  next =>
    rw [closingRestWidth?]
    cases afterSameWord? left rest with
    | none => rfl
    | some behind =>
        simp only [Option.bind_eq_bind, Option.bind_some, List.length_cons]
        split
        next => rw [Option.map_some]; congr 1; omega
        next => rfl
  next => rfl

theorem closingRestWidth?_end (c : Char) (rest : List Char) :
    closingRestWidth? [] (c :: rest) =
      if c = '>' then some 1
      else if isBlank c then (closingRestWidth? [] rest).map (· + 1)
      else none := by
  simp only [closingRestWidth?, afterSameWord?_nil, Option.bind_eq_bind, Option.bind_some]
  by_cases hblank : isBlank c
  · have hc : c ≠ '>' := by
      rintro rfl
      contradiction
    have hwidth : blankWidth (c :: rest) = blankWidth rest + 1 := by simp [blankWidth, hblank]
    rw [hwidth, List.drop_succ_cons, if_neg hc, if_pos hblank]
    split
    next => simp
    next => rfl
  · have hwidth : blankWidth (c :: rest) = 0 := by simp [blankWidth, hblank]
    rw [hwidth, List.drop_zero, if_neg hblank]
    split
    next d later heq =>
      obtain ⟨rfl, -⟩ := List.cons.inj heq
      rfl
    next hother =>
      rw [if_neg]
      rintro rfl
      exact hother rest rfl

theorem closingTagWidth?_eq (name : List Char) (c : Char) (rest : List Char) :
    closingTagWidth? name (c :: rest) =
      if c = '<' then
        match rest with
        | '/' :: text => (closingRestWidth? name text).map (· + 2)
        | _ => none
      else none := by
  have hbracket (text : List Char) :
      closingTagWidth? name ('<' :: '/' :: text) = (closingRestWidth? name text).map (· + 2) := by
    have hafter : after? ['<', '/'] ('<' :: '/' :: text) = some text := rfl
    rw [closingTagWidth?, closingRestWidth?, hafter]
    simp only [Option.bind_eq_bind, Option.bind_some]
    cases afterSameWord? name text with
    | none => rfl
    | some behind =>
        simp only [Option.bind_some]
        generalize behind.drop (blankWidth behind) = later
        cases later with
        | nil => rfl
        | cons d text' =>
            by_cases hd : d = '>'
            · subst hd
              simp only [Option.map_some, Option.some.injEq]
              omega
            · simp [hd]
  by_cases hc : c = '<'
  · subst hc
    rw [if_pos rfl]
    split
    next text => exact hbracket text
    next hother =>
      have hafter : after? ['<', '/'] ('<' :: rest) = none := by
        cases rest with
        | nil => rfl
        | cons d rest =>
            have hd : '/' ≠ d := by
              rintro rfl
              exact hother rest rfl
            simp [after?, hd]
      rw [closingTagWidth?, hafter]
      rfl
  · have hafter : after? ['<', '/'] (c :: rest) = none := by simp [after?, Ne.symm hc]
    rw [closingTagWidth?, hafter, if_neg hc]
    rfl

/-! ## The width of an element -/

/-- What a closing tag that has begun will take, if it goes on well. -/
def pendingWidth? (spelled : List Char) : Ending → List Char → Option Nat
  | .text, _ => none
  | .bracket, '/' :: text => (closingRestWidth? spelled text).map (· + 1)
  | .bracket, _ => none
  | .name left, text => closingRestWidth? left text

theorem closingTagWidth?_eq_pendingWidth? (spelled : List Char) (c : Char) (rest : List Char) :
    closingTagWidth? spelled (c :: rest) =
      (pendingWidth? spelled (.restart c) rest).map (· + 1) := by
  rw [closingTagWidth?_eq, Ending.restart]
  split
  next =>
    cases rest with
    | nil => rfl
    | cons d rest =>
        by_cases hd : d = '/'
        · subst hd
          rw [pendingWidth?, Option.map_map]
          rfl
        · simp [pendingWidth?, hd]
  next => rfl

theorem contentWidth?_cons (spelled : List Char) (c : Char) (rest : List Char) :
    contentWidth? spelled (c :: rest) =
      ((pendingWidth? spelled (.restart c) rest).or (contentWidth? spelled rest)).map (· + 1) := by
  rw [contentWidth?, closingTagWidth?_eq_pendingWidth?]
  cases pendingWidth? spelled (.restart c) rest <;> rfl

theorem simpleLower_of_not_isWord {c : Char} (hword : isWord c = false) : simpleLower c = c := by
  have hdotted : c ≠ '\u0130' := by
    rintro rfl
    exact absurd hword (by decide +kernel)
  have hkelvin : c ≠ '\u212A' := by
    rintro rfl
    exact absurd hword (by decide +kernel)
  simp only [simpleLower, beq_iff_eq, hdotted, hkelvin, if_false]
  unfold Char.toLower
  split
  next hupper =>
    have halpha : c.isAlpha = (c.isUpper || c.isLower) := rfl
    have hcapital : c.isUpper = true := decide_eq_true hupper
    rw [hcapital, Bool.true_or] at halpha
    rw [isAlpha_isWord halpha] at hword
    contradiction
  next => rfl

theorem isWord_simpleLower {c : Char} (hword : isWord c) : isWord (simpleLower c) := by
  by_cases hascii : c.toNat < 128
  · have hcodes : ∀ code < 128,
        isWord (Char.ofNat code) → isWord (simpleLower (Char.ofNat code)) := by decide +kernel
    have hcode := hcodes c.toNat hascii
    rw [Char.ofNat_toNat] at hcode
    exact hcode hword
  · unfold simpleLower
    split
    next => decide +kernel
    next =>
      split
      next => decide +kernel
      next =>
        have hupper : c.isUpper = false := by
          have hlast : 'Z'.val.toNat = 90 := rfl
          have hcapital : c.isUpper = decide ('A'.val ≤ c.val ∧ c.val ≤ 'Z'.val) := rfl
          rw [hcapital, decide_eq_false_iff_not, UInt32.le_iff_toNat_le, UInt32.le_iff_toNat_le]
          simp only [Char.toNat] at hascii
          omega
        unfold Char.toLower
        split
        next hrange =>
          have hcapital : c.isUpper = true := decide_eq_true hrange
          rw [hcapital] at hupper
          contradiction
        next => exact hword

/-- A letter that repeats a letter of a word belongs to words itself. -/
theorem isWord_of_simpleLower_eq {c d : Char} (hd : isWord d)
    (hsame : simpleLower c = simpleLower d) : isWord c := by
  by_contra hc
  rw [Bool.not_eq_true] at hc
  rw [simpleLower_of_not_isWord hc] at hsame
  rw [hsame, isWord_simpleLower hd] at hc
  contradiction

namespace Reader

theorem content_ne_closed (spelled : List Char) (ending : Ending) :
    content spelled ending ≠ closed := fun heq => by contradiction

/-- What is left of the name in a closing tag belongs to the name. -/
def Spells (spelled : List Char) (ending : Ending) : Prop :=
  ∀ left, ending = .name left → left <:+ spelled

theorem spells_restart (spelled : List Char) (c : Char) : Spells spelled (.restart c) := by
  intro left heq
  rw [Ending.restart] at heq
  split at heq <;> contradiction

theorem spells_name {spelled left : List Char} (hleft : left <:+ spelled) :
    Spells spelled (.name left) := by
  rintro _ ⟨⟩
  exact hleft

/-- A closing tag that has begun ends with a character, goes on with it or goes wrong.  A character
that it goes on with begins no other one. -/
theorem step_content_cases {spelled : List Char} (hspelled : ∀ d ∈ spelled, isWord d)
    {ending : Ending} (hleft : Spells spelled ending) (c : Char) (rest : List Char) :
    ((content spelled ending).step c = closed ∧
        pendingWidth? spelled ending (c :: rest) = some 1) ∨
      (∃ next, (content spelled ending).step c = content spelled next ∧ c ≠ '<' ∧
        Spells spelled next ∧
        pendingWidth? spelled ending (c :: rest) =
          (pendingWidth? spelled next rest).map (· + 1)) ∨
      ((content spelled ending).step c = content spelled (.restart c) ∧
        pendingWidth? spelled ending (c :: rest) = none) := by
  cases ending with
  | text => exact .inr (.inr ⟨rfl, rfl⟩)
  | bracket =>
      by_cases hc : c = '/'
      · subst hc
        exact .inr (.inl ⟨.name spelled, rfl, by decide, spells_name List.suffix_rfl, rfl⟩)
      · refine .inr (.inr ⟨?_, ?_⟩)
        · simp only [step, if_neg hc]
        · simp [pendingWidth?, hc]
  | name left =>
      cases left with
      | nil =>
          simp only [step, pendingWidth?, closingRestWidth?_end]
          by_cases hc : c = '>'
          · exact .inl ⟨if_pos hc, if_pos hc⟩
          · rw [if_neg hc, if_neg hc]
            by_cases hblank : isBlank c
            · have hbracket : c ≠ '<' := by
                rintro rfl
                contradiction
              rw [if_pos hblank, if_pos hblank]
              exact .inr (.inl ⟨_, rfl, hbracket, hleft, rfl⟩)
            · rw [if_neg hblank, if_neg hblank]
              exact .inr (.inr ⟨rfl, rfl⟩)
      | cons d left =>
          have hsuffix := hleft (d :: left) rfl
          have hd : isWord d := hspelled d (hsuffix.subset List.mem_cons_self)
          simp only [step, pendingWidth?, closingRestWidth?_letter]
          by_cases hsame : simpleLower c = simpleLower d
          · have hc : isWord c := isWord_of_simpleLower_eq hd hsame
            have hbracket : c ≠ '<' := by
              rintro rfl
              exact absurd hc (by decide +kernel)
            rw [if_pos ⟨hc, hsame⟩, if_pos hsame]
            exact .inr (.inl
              ⟨_, rfl, hbracket, spells_name ((List.suffix_cons d left).trans hsuffix), rfl⟩)
          · rw [if_neg fun hboth => hsame hboth.2, if_neg hsame]
            exact .inr (.inr ⟨rfl, rfl⟩)

theorem width?_content {spelled : List Char} (hspelled : ∀ d ∈ spelled, isWord d)
    {ending : Ending} (hleft : Spells spelled ending) (text : List Char) :
    (content spelled ending).width? text =
      (pendingWidth? spelled ending text).or (contentWidth? spelled text) := by
  induction text generalizing ending with
  | nil =>
      rw [width?_nil (content_ne_closed _ _)]
      cases ending with
      | text => rfl
      | bracket => rfl
      | name left =>
          cases left with
          | nil => rfl
          | cons d left => simp [pendingWidth?, closingRestWidth?, afterSameWord?_cons_nil,
              contentWidth?]
  | cons c rest ih =>
      rw [width?_cons (content_ne_closed _ _)]
      rcases step_content_cases hspelled hleft c rest with
        ⟨hstep, hwidth⟩ | ⟨next, hstep, hc, hnext, hwidth⟩ | ⟨hstep, hwidth⟩
      · rw [hstep, hwidth, width?_closed]
        rfl
      · rw [hstep, hwidth, ih hnext, contentWidth?_cons, Ending.restart, if_neg hc, Option.map_or]
        rfl
      · rw [hstep, hwidth, ih (spells_restart spelled c), contentWidth?_cons, Option.none_or]

theorem width?_tag
    {spelled : List Char} (hspelled : ∀ d ∈ spelled, isWord d) (text : List Char) :
    (tag spelled).width? text =
      (tagRestWidth? text).bind fun width =>
        (contentWidth? spelled (text.drop width)).map (width + ·) := by
  induction text with
  | nil => rfl
  | cons c rest ih =>
      rw [width?_cons fun heq => by contradiction, tagRestWidth?]
      by_cases hc : c = '>'
      · simp only [step, stepTag, if_pos hc, beq_iff_eq, Option.bind_some, List.drop_one,
          List.tail_cons]
        rw [width?_content hspelled fun left heq => by contradiction]
        simp only [pendingWidth?, Option.none_or, Nat.add_comm 1]
      · simp only [step, stepTag, if_neg hc, beq_iff_eq, ih]
        cases tagRestWidth? rest with
        | none => rfl
        | some width =>
            simp only [Option.bind_some, Option.map_some, List.drop_succ_cons, Option.map_map]
            congr 1
            funext later
            simp only [Function.comp_apply]
            omega

theorem width?_name (spelled text : List Char) :
    (name spelled).width? text =
      if (spelled ++ text.takeWhile isWord).map foldCase ∈ verbatimNames then
        ((tag (spelled ++ text.takeWhile isWord)).width? (text.dropWhile isWord)).map
          (· + (text.takeWhile isWord).length)
      else none := by
  induction text generalizing spelled with
  | nil => simp [width?]
  | cons c rest ih =>
      rw [width?_cons fun heq => by contradiction]
      by_cases hc : isWord c
      · simp only [step, if_pos hc, List.takeWhile_cons_of_pos hc, List.dropWhile_cons_of_pos hc,
          ih, List.append_assoc, List.singleton_append, List.length_cons]
        split
        next => rw [Option.map_map]; rfl
        next => rfl
      · simp only [step, if_neg hc, List.takeWhile_cons_of_neg hc, List.dropWhile_cons_of_neg hc,
          List.append_nil, List.length_nil, Nat.add_zero, Option.map_id']
        split
        next => rw [width?_cons fun heq => by contradiction]; rfl
        next => rw [width?_lost]; rfl

end Reader

theorem takeWhile_isWord_of_wordEnds
    {spelled rest : List Char} (hspelled : ∀ d ∈ spelled, isWord d) (hends : wordEnds rest) :
    (spelled ++ rest).takeWhile isWord = spelled := by
  rw [List.takeWhile_append_of_pos hspelled]
  cases rest with
  | nil => simp
  | cons c rest => simp_all [wordEnds]

theorem wordEnds_dropWhile (text : List Char) : wordEnds (text.dropWhile isWord) := by
  cases hbehind : text.dropWhile isWord with
  | nil => rfl
  | cons c behind =>
      have hhead := List.head?_dropWhile_not isWord text
      rw [hbehind] at hhead
      simpa [wordEnds] using hhead

theorem elementRestWidth?_of_spells
    {name text : List Char} (hspells : (text.takeWhile isWord).map foldCase = name) :
    elementRestWidth? name text =
      ((Reader.tag (text.takeWhile isWord)).width? (text.dropWhile isWord)).map
        (· + (text.takeWhile isWord).length) := by
  have hwords : ∀ d ∈ text.takeWhile isWord, isWord d := fun d => List.mem_takeWhile_imp
  have hlength : (text.takeWhile isWord).length = name.length := by
    rw [← hspells, List.length_map]
  have hafter : afterWord? name text = some (text.dropWhile isWord) :=
    afterWord?_eq_some_iff.mpr ⟨_, hspells, List.takeWhile_append_dropWhile.symm⟩
  have htake : text.take name.length = text.takeWhile isWord := by
    nth_rewrite 1 [← List.takeWhile_append_dropWhile (p := isWord) (l := text)]
    rw [← hlength, List.take_left]
  rw [elementRestWidth?, hafter, Reader.width?_tag hwords, htake, hlength]
  simp only [Option.bind_eq_bind, Option.bind_some, if_pos (wordEnds_dropWhile text)]
  cases tagRestWidth? (text.dropWhile isWord) with
  | none => rfl
  | some width =>
      simp only [Option.bind_some]
      cases contentWidth? (text.takeWhile isWord) ((text.dropWhile isWord).drop width) with
      | none => rfl
      | some content =>
          simp only [Option.bind_some, Option.map_some, Option.some.injEq]
          omega

theorem elementRestWidth?_of_not_spells
    {name text : List Char} (hname : name.all Char.isLower)
    (hspells : (text.takeWhile isWord).map foldCase ≠ name) :
    elementRestWidth? name text = none := by
  rw [elementRestWidth?]
  cases hafter : afterWord? name text with
  | none => rfl
  | some rest =>
      obtain ⟨spelled, hspelled, rfl⟩ := afterWord?_eq_some_iff.mp hafter
      have hends : ¬ wordEnds rest := by
        intro hends
        rw [takeWhile_isWord_of_wordEnds (hspelled.all_isWord hname) hends] at hspells
        exact hspells hspelled
      simp only [Option.bind_eq_bind, Option.bind_some, if_neg hends]

theorem elementRestWidth?_eq
    {name : List Char} (hname : name.all Char.isLower) (text : List Char) :
    elementRestWidth? name text =
      if (text.takeWhile isWord).map foldCase = name then
        ((Reader.tag (text.takeWhile isWord)).width? (text.dropWhile isWord)).map
          (· + (text.takeWhile isWord).length)
      else none := by
  split
  next hspells => exact elementRestWidth?_of_spells hspells
  next hspells => exact elementRestWidth?_of_not_spells hname hspells

/-- Where at most one of the names can succeed, the order of the names does not matter. -/
theorem findSome?_eq_ite
    {found : List Char} {result : Option Nat} {recognise : List Char → Option Nat}
    {names : List (List Char)}
    (hnames : ∀ name ∈ names, recognise name = if found = name then result else none) :
    names.findSome? recognise = if found ∈ names then result else none := by
  induction names with
  | nil => rfl
  | cons name names ih =>
      obtain ⟨hname, hlater⟩ := List.forall_mem_cons.mp hnames
      rw [List.findSome?_cons, hname, ih hlater]
      by_cases heq : found = name
      · cases result <;> simp [heq]
      · simp [heq]

theorem verbatimElement?_bracket (text : List Char) :
    verbatimElement? ('<' :: text) =
      ((Reader.name []).width? text).map fun width => ⟨width + 1, ()⟩ := by
  have hlower : ∀ name ∈ verbatimNames, name.all Char.isLower := by decide
  have hnames : (verbatimNames.findSome? fun name => elementRestWidth? name text) =
      (Reader.name []).width? text := by
    rw [Reader.width?_name, List.nil_append]
    exact findSome?_eq_ite fun name hname => elementRestWidth?_eq (hlower name hname) text
  rw [verbatimElement?, hnames]

theorem verbatimElement?_other {c : Char} (hc : c ≠ '<') (text : List Char) :
    verbatimElement? (c :: text) = none := by
  simp [verbatimElement?, hc]

end Stencil.Markup
