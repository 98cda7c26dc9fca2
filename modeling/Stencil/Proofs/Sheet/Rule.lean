import Stencil.Proofs.Sheet.Prune
import Stencil.Proofs.Sheet.Selector

/-!
# Pruning the rules of a sheet

A sheet is a tree: statements and rules, with more of them inside of a rule.  Pruning walks along
its text with nothing but a count of open braces, and yet it leaves out whole rules of the tree.
It leaves out the unused ones, as long as the braces and semicolons of the text are those of the
tree and no quoted string changes the decision about a rule.
-/

namespace Stencil.Sheet

open Stencil.Text

/-- The items of a sheet, or of the inside of a rule.  A declaration without a semicolon, which may
be empty, is the last item, since what follows would belong to it. -/
inductive Items where
  | last (declaration : List Char)
  | statement (text : List Char) (rest : Items)
  | rule (selector : List Char) (inside rest : Items)

namespace Items

def text : Items → List Char
  | last declaration => declaration
  | statement words rest => words ++ ';' :: rest.text
  | rule selector inside rest => selector ++ '{' :: (inside.text ++ '}' :: rest.text)

/-- No text holds a brace and no selector holds a semicolon, also not in a quoted string. -/
def Plain : Items → Prop
  | last declaration => BraceFree declaration
  | statement words rest => BraceFree words ∧ rest.Plain
  | rule selector inside rest =>
    BraceFree selector ∧ ';' ∉ selector ∧ inside.Plain ∧ rest.Plain

instance (text : List Char) : Decidable (BraceFree text) :=
  List.decidableBAll _ text

instance decidablePlain : (items : Items) → Decidable items.Plain
  | last declaration => inferInstanceAs (Decidable (BraceFree declaration))
  | statement words rest =>
    have := decidablePlain rest
    inferInstanceAs (Decidable (BraceFree words ∧ rest.Plain))
  | rule selector inside rest =>
    have := decidablePlain inside
    have := decidablePlain rest
    inferInstanceAs
      (Decidable (BraceFree selector ∧ ';' ∉ selector ∧ inside.Plain ∧ rest.Plain))

variable (removed : List Char → Prop) [DecidablePred removed]

/-- The items without the rules of some selectors and all that these rules contain. -/
def without : Items → Items
  | last declaration => last declaration
  | statement words rest => statement words rest.without
  | rule selector inside rest =>
    if removed selector then rest.without else rule selector inside.without rest.without

def judged : Items → List (List Char)
  | last _ => []
  | statement _ rest => rest.judged
  | rule selector inside rest =>
    selector :: ((if removed selector then [] else inside.judged) ++ rest.judged)

end Items

/-! ## The walk along a tree -/

variable {used : List (List Char)} {items : Items}

/-- A walk that skips passes over the inside of a rule. -/
theorem pruneFrom_skipped_items (hplain : items.Plain) (depth : Nat) (behind : List Char) :
    pruneFrom used [] (depth + 1) (items.text ++ behind) =
      pruneFrom used [] (depth + 1) behind := by
  induction items generalizing depth behind with
  | last declaration => exact pruneFrom_skipped_plain hplain depth behind
  | statement words rest ih =>
      obtain ⟨hwords, hrest⟩ := hplain
      have hsemicolon : pruneFrom used [] (depth + 1) (';' :: (rest.text ++ behind)) =
          pruneFrom used [] (depth + 1) (rest.text ++ behind) := by
        rw [pruneFrom_other (by decide) (by decide), pruneFrom_held]
      rw [Items.text, List.append_assoc, pruneFrom_skipped_plain hwords, List.cons_append,
        hsemicolon, ih hrest]
  | rule selector inside rest ihInside ihRest =>
      obtain ⟨hselector, -, hinside, hrest⟩ := hplain
      rw [Items.text, List.append_assoc, pruneFrom_skipped_plain hselector, List.cons_append,
        pruneFrom_skipped_open, List.append_assoc, ihInside hinside, List.cons_append,
        pruneFrom_skipped_close, ihRest hrest]

/-- What can stand behind the items of a sheet or of a rule. -/
def EndsItems (behind : List Char) : Prop :=
  behind = [] ∨ ∃ rest, behind = '}' :: rest

theorem pruneFrom_items (hplain : items.Plain) {behind : List Char} (hbehind : EndsItems behind) :
    pruneFrom used [] 0 (items.text ++ behind) =
      (items.without (keeps used · = false)).text ++ pruneFrom used [] 0 behind := by
  induction items generalizing behind with
  | last declaration =>
      rcases hbehind with rfl | ⟨rest, rfl⟩
      · rw [List.append_nil, Items.text, pruneFrom_plain_nil hplain, pruneFrom_nil]
        exact (List.append_nil declaration).symm
      · rw [Items.text, pruneFrom_closing hplain, pruneFrom_close]
        rfl
  | statement words rest ih =>
      obtain ⟨hwords, hrest⟩ := hplain
      have hlead : IsLead (words ++ [';']) := .inr ⟨words, rfl⟩
      have hfree : BraceFree (words ++ [';']) :=
        List.forall_mem_append.mpr ⟨hwords, by simp⟩
      have hsplit : (Items.statement words rest).text ++ behind =
          words ++ [';'] ++ (rest.text ++ behind) := by
        simp [Items.text]
      rw [hsplit, pruneFrom_lead hlead hfree, ih hrest hbehind]
      simp [Items.text, Items.without]
  | rule selector inside rest ihInside ihRest =>
      obtain ⟨hselector, hsemicolon, hinside, hrest⟩ := hplain
      have hsplit : (Items.rule selector inside rest).text ++ behind =
          [] ++ selector ++ '{' :: (inside.text ++ '}' :: (rest.text ++ behind)) := by
        simp [Items.text]
      rw [hsplit, pruneFrom_selector (.inl rfl) hsemicolon hselector, Items.without]
      cases hkeeps : keeps used selector with
      | true =>
          rw [if_pos rfl, if_neg (by simp), ihInside hinside (.inr ⟨_, rfl⟩), pruneFrom_close,
            ihRest hrest hbehind]
          simp [Items.text]
      | false =>
          rw [if_neg (by simp), if_pos rfl, pruneFrom_skipped_items hinside,
            pruneFrom_skipped_close, ihRest hrest hbehind]
          rfl

/-- Pruning leaves out the rules of the tree whose selectors it does not keep. -/
theorem prune_text (hplain : items.Plain) :
    prune used items.text = (items.without (keeps used · = false)).text := by
  have hwalk : pruneFrom used [] 0 (items.text ++ []) =
      (items.without (keeps used · = false)).text ++ pruneFrom used [] 0 [] :=
    pruneFrom_items hplain (.inl rfl)
  rwa [List.append_nil, pruneFrom_nil, List.reverse_nil, List.append_nil] at hwalk

/-! ## Trees with the same text -/

/-- The text behind the brace that closes the innermost open one, when so many others are opened
before it. -/
def behindClose? : Nat → List Char → Option (List Char)
  | _, [] => none
  | depth, c :: rest =>
    if c = '{' then behindClose? (depth + 1) rest
    else if c = '}' then if depth = 0 then some rest else behindClose? (depth - 1) rest
    else behindClose? depth rest

theorem behindClose?_plain {plain : List Char} (hplain : BraceFree plain) (depth : Nat)
    (behind : List Char) :
    behindClose? depth (plain ++ behind) = behindClose? depth behind := by
  induction plain with
  | nil => rfl
  | cons c plain ih =>
      obtain ⟨hc, hlater⟩ := List.forall_mem_cons.mp hplain
      rw [List.cons_append, behindClose?, if_neg hc.1, if_neg hc.2, ih hlater]

theorem behindClose?_items (hplain : items.Plain) (depth : Nat) (behind : List Char) :
    behindClose? depth (items.text ++ behind) = behindClose? depth behind := by
  induction items generalizing depth behind with
  | last declaration => exact behindClose?_plain hplain depth behind
  | statement words rest ih =>
      obtain ⟨hwords, hrest⟩ := hplain
      have hsemicolon : BraceFree (words ++ [';']) :=
        List.forall_mem_append.mpr ⟨hwords, by simp⟩
      have hsplit : (Items.statement words rest).text ++ behind =
          words ++ [';'] ++ (rest.text ++ behind) := by
        simp [Items.text]
      rw [hsplit, behindClose?_plain hsemicolon, ih hrest]
  | rule selector inside rest ihInside ihRest =>
      obtain ⟨hselector, -, hinside, hrest⟩ := hplain
      rw [Items.text, List.append_assoc, behindClose?_plain hselector, List.cons_append,
        behindClose?, if_pos rfl, List.append_assoc, ihInside hinside, List.cons_append,
        behindClose?, if_neg (by decide), if_pos rfl, if_neg (Nat.succ_ne_zero depth)]
      exact ihRest hrest depth behind

/-- The brace that closes a rule tells where its inside ends. -/
theorem text_eq_of_close
    {first second : Items} (hfirst : first.Plain) (hsecond : second.Plain)
    {behind later : List Char} (heq : first.text ++ '}' :: behind = second.text ++ '}' :: later) :
    first.text = second.text ∧ behind = later := by
  have hclose (rest : List Char) : behindClose? 0 ('}' :: rest) = some rest := rfl
  have hsame := congrArg (behindClose? 0) heq
  rw [behindClose?_items hfirst, behindClose?_items hsecond, hclose, hclose,
    Option.some.injEq] at hsame
  subst hsame
  exact ⟨List.append_cancel_right heq, rfl⟩

section

variable {removed intended : List Char → Prop} [DecidablePred removed] [DecidablePred intended]

theorem Items.Plain.without (hplain : items.Plain) : (items.without removed).Plain := by
  induction items with
  | last declaration => exact hplain
  | statement words rest ih => exact ⟨hplain.1, ih hplain.2⟩
  | rule selector inside rest ihInside ihRest =>
      obtain ⟨hselector, hsemicolon, hinside, hrest⟩ := hplain
      rw [Items.without]
      split
      next => exact ihRest hrest
      next => exact ⟨hselector, hsemicolon, ihInside hinside, ihRest hrest⟩

/-- Up to the first opening brace two texts agree. -/
theorem eq_of_append_open
    {first second behind later : List Char} (hfirst : BraceFree first) (hsecond : BraceFree second)
    (heq : first ++ '{' :: behind = second ++ '{' :: later) : first = second ∧ behind = later := by
  induction first generalizing second with
  | nil =>
      cases second with
      | nil => exact ⟨rfl, (List.cons.inj heq).2⟩
      | cons d second =>
          obtain ⟨rfl, -⟩ := List.cons.inj heq
          exact absurd rfl (hsecond '{' List.mem_cons_self).1
  | cons c first ih =>
      cases second with
      | nil =>
          obtain ⟨rfl, -⟩ := List.cons.inj heq
          exact absurd rfl (hfirst '{' List.mem_cons_self).1
      | cons d second =>
          obtain ⟨rfl, hlater⟩ := List.cons.inj heq
          obtain ⟨rfl, hbehind⟩ := ih (List.forall_mem_cons.mp hfirst).2
            (List.forall_mem_cons.mp hsecond).2 hlater
          exact ⟨rfl, hbehind⟩

/-- If the items that are left begin with a selector, its rule was not left out. -/
theorem not_removed_of_text
    (hplain : items.Plain) {selector behind : List Char} (hselector : BraceFree selector)
    (hsemicolon : ';' ∉ selector)
    (htext : (items.without removed).text = selector ++ '{' :: behind) : ¬ removed selector := by
  induction items with
  | last declaration =>
      have hopen : '{' ∈ declaration := by
        have hmem : '{' ∈ selector ++ '{' :: behind := by simp
        rwa [← htext] at hmem
      exact absurd rfl (hplain '{' hopen).1
  | statement words rest _ =>
      have hbehind : words ++ ';' :: (rest.without removed).text = selector ++ '{' :: behind :=
        htext
      rcases List.append_eq_append_iff.mp hbehind with
        ⟨between, rfl, hbetween⟩ | ⟨between, rfl, hbetween⟩
      · cases between with
        | nil => simp at hbetween
        | cons c between =>
            obtain ⟨rfl, -⟩ := List.cons.inj hbetween
            exact absurd (by simp) hsemicolon
      · cases between with
        | nil => simp at hbetween
        | cons c between =>
            obtain ⟨rfl, -⟩ := List.cons.inj hbetween
            exact absurd rfl (hplain.1 '{' (by simp)).1
  | rule other inside rest _ ihRest =>
      obtain ⟨hother, -, -, hrest⟩ := hplain
      rw [Items.without] at htext
      split at htext
      next => exact ihRest hrest htext
      next hkept =>
        obtain ⟨rfl, -⟩ := eq_of_append_open hother hselector htext
        exact hkept

/-- Two ways to leave out rules give the same text only if they judge the rules alike. -/
theorem text_without_eq_iff (hplain : items.Plain) :
    (items.without removed).text = (items.without intended).text ↔
      ∀ selector ∈ items.judged intended, removed selector ↔ intended selector := by
  induction items with
  | last declaration => simp [Items.without, Items.judged]
  | statement words rest ih =>
      rw [Items.without, Items.without, Items.judged, Items.text, Items.text, ← ih hplain.2,
        List.append_right_inj, List.cons.injEq]
      exact and_iff_right rfl
  | rule selector inside rest ihInside ihRest =>
      obtain ⟨hselector, hsemicolon, hinside, hrest⟩ := hplain
      rw [Items.judged, List.forall_mem_cons, List.forall_mem_append, ← ihRest hrest,
        Items.without, Items.without]
      by_cases hremoved : removed selector <;> by_cases hintended : intended selector
      · simp [hremoved, hintended]
      · rw [if_pos hremoved, if_neg hintended]
        constructor
        · intro htext
          exact absurd hremoved (not_removed_of_text hrest hselector hsemicolon htext)
        · rintro ⟨hsame, -⟩
          exact absurd (hsame.mp hremoved) hintended
      · rw [if_neg hremoved, if_pos hintended]
        constructor
        · intro htext
          exact absurd hintended (not_removed_of_text hrest hselector hsemicolon htext.symm)
        · rintro ⟨hsame, -⟩
          exact absurd (hsame.mpr hintended) hremoved
      · rw [if_neg hremoved, if_neg hintended, if_neg hintended, ← ihInside hinside, Items.text,
          Items.text]
        constructor
        · intro htext
          obtain ⟨-, hbehind⟩ := eq_of_append_open hselector hselector htext
          obtain ⟨hsame, hlater⟩ := text_eq_of_close hinside.without hinside.without hbehind
          exact ⟨by simp [hremoved, hintended], hsame, hlater⟩
        · rintro ⟨-, hsame, hlater⟩
          rw [hsame, hlater]

end

/-- Pruning leaves out whole rules of a sheet.  They are the unused ones, with all that they
contain, exactly when strings change the decision about no rule that is not inside of an unused
one. -/
theorem prune_eq_without_unused_iff (used : List (List Char)) (hplain : items.Plain) :
    prune used items.text = (items.without (keeps used · = false)).text ∧
      (prune used items.text = (items.without (IsUnused used)).text ↔
        ∀ selector ∈ items.judged (IsUnused used), ¬ IsMisjudged used selector) := by
  have hwalk : prune used items.text = (items.without (keeps used · = false)).text :=
    prune_text hplain
  refine ⟨hwalk, ?_⟩
  rw [hwalk, text_without_eq_iff hplain]
  simp only [keeps_eq_false_iff_isUnused_iff]

/-- One of two rules in a rule is unused, and its string holds no class; the classes that stand in
the strings of the statement and of the value play no part. -/
theorem prune_eq_without_unused_iff_nested :
    let items : Items :=
      .statement "@charset \".c\"".toList
        (.rule "@media print".toList
          (.rule ".b[c='.4']".toList (.last "x:y".toList)
            (.rule ".a".toList (.last "content:'.b'".toList) (.last ['\n'])))
          (.last []))
    items.Plain ∧
      prune [".a".toList] items.text = (items.without (IsUnused [".a".toList])).text ∧
        (items.without (IsUnused [".a".toList])).text =
          "@charset \".c\";@media print\x7b.a\x7bcontent:'.b'\x7d\n\x7d".toList := by
  intro items
  have hplain : items.Plain := by decide +kernel
  have hjudged : ∀ selector ∈ items.judged (IsUnused [".a".toList]),
      ¬ IsMisjudged [".a".toList] selector := by
    decide +kernel
  exact ⟨hplain, (prune_eq_without_unused_iff _ hplain).2.mpr hjudged, by decide +kernel⟩

/-- A selector that names no class is left out for the class that its string seems to hold. -/
theorem prune_ne_without_unused_of_quoted :
    let items : Items :=
      .rule "a[href$=\"x.pdf\"]".toList (.last "color:red".toList) (.last [])
    items.Plain ∧ classesOutside "a[href$=\"x.pdf\"]".toList = [] ∧
      (items.without (IsUnused [])).text = items.text ∧
        prune [] items.text ≠ (items.without (IsUnused [])).text := by
  intro items
  exact ⟨by decide +kernel, by decide +kernel, by decide +kernel, by decide +kernel⟩

end Stencil.Sheet
