import Stencil.Sheet.Prune
import Stencil.Proofs.Text.Search

/-!
# Pruning twice

A rule that is dropped leaves the statements before its selector behind.  They end with a
semicolon, so they join no selector of the text that follows, and a second walk along the sheet
finds every selector as the first one did.  Walking twice is walking once with the smaller set of
used classes.
-/

namespace Stencil.Sheet

open Stencil.Text

/-! ## The text before a selector -/

/-- A text that ends with a semicolon, or no text at all. -/
def IsLead (text : List Char) : Prop :=
  text = [] ∨ ∃ front, text = front ++ [';']

theorem IsLead.append {first second : List Char} (hfirst : IsLead first) (hsecond : IsLead second) :
    IsLead (first ++ second) := by
  rcases hsecond with rfl | ⟨front, rfl⟩
  · simpa using hfirst
  · exact .inr ⟨first ++ front, by simp⟩

theorem lastIndexOf?_eq_none_of_notMem {selector : List Char} (hselector : ';' ∉ selector) :
    lastIndexOf? [';'] selector = none := by
  rw [lastIndexOf?_eq_none_iff]
  intro hoccurs
  exact hselector (hoccurs.subset List.mem_cons_self)

theorem lastIndexOf?_append_of_notMem
    {selector : List Char} (hselector : ';' ∉ selector) (front : List Char) :
    lastIndexOf? [';'] (front ++ ';' :: selector) = some front.length := by
  induction front with
  | nil => simp [lastIndexOf?, lastIndexOf?_eq_none_of_notMem hselector]
  | cons c front ih => simp [lastIndexOf?, ih]

theorem splitSelector_append
    {lead selector : List Char} (hlead : IsLead lead) (hselector : ';' ∉ selector) :
    splitSelector (lead ++ selector) = (lead, selector) := by
  rcases hlead with rfl | ⟨front, rfl⟩
  · simp [splitSelector, splitLast?, lastIndexOf?_eq_none_of_notMem hselector]
  · have hfound := lastIndexOf?_append_of_notMem hselector front
    rw [List.append_assoc, List.singleton_append]
    simp [splitSelector, splitLast?, hfound]

theorem exists_lead_append (text : List Char) :
    ∃ lead selector, IsLead lead ∧ ';' ∉ selector ∧ text = lead ++ selector := by
  induction text with
  | nil => exact ⟨[], [], .inl rfl, by simp, rfl⟩
  | cons c text ih =>
      obtain ⟨lead, selector, hlead, hselector, rfl⟩ := ih
      rcases hlead with rfl | ⟨front, rfl⟩
      · by_cases hc : c = ';'
        · subst hc
          exact ⟨[';'], selector, .inr ⟨[], rfl⟩, hselector, rfl⟩
        · exact ⟨[], c :: selector, .inl rfl, by simp [hselector, Ne.symm hc], rfl⟩
      · exact ⟨c :: front ++ [';'], selector, .inr ⟨c :: front, rfl⟩, hselector, rfl⟩

theorem splitSelector_lead_append {lead : List Char} (hlead : IsLead lead) (text : List Char) :
    splitSelector (lead ++ text) = (lead ++ (splitSelector text).1, (splitSelector text).2) := by
  obtain ⟨inner, selector, hinner, hselector, rfl⟩ := exists_lead_append text
  rw [← List.append_assoc, splitSelector_append (hlead.append hinner) hselector,
    splitSelector_append hinner hselector]

/-! ## The walk -/

variable {used larger : List (List Char)}

def BraceFree (text : List Char) : Prop :=
  ∀ c ∈ text, c ≠ '{' ∧ c ≠ '}'

theorem braceFree_nil : BraceFree [] :=
  List.forall_mem_nil _

theorem BraceFree.reverse {text : List Char} (hfree : BraceFree text) : BraceFree text.reverse :=
  fun c hc => hfree c (List.mem_reverse.mp hc)

theorem BraceFree.of_append {first second : List Char} (hfree : BraceFree (first ++ second)) :
    BraceFree first ∧ BraceFree second :=
  List.forall_mem_append.mp hfree

/-- A walk tells the two braces from other characters. -/
theorem brace_induction {motive : List Char → Prop} (nil : motive [])
    (opening : ∀ rest, motive rest → motive ('{' :: rest))
    (closing : ∀ rest, motive rest → motive ('}' :: rest))
    (other : ∀ c rest, c ≠ '{' → c ≠ '}' → motive rest → motive (c :: rest)) :
    ∀ text, motive text
  | [] => nil
  | c :: rest => by
      have hrest := brace_induction nil opening closing other rest
      by_cases hopen : c = '{'
      · exact hopen ▸ opening rest hrest
      · by_cases hclose : c = '}'
        · exact hclose ▸ closing rest hrest
        · exact other c rest hopen hclose hrest

/-! Each kind of character takes the walk one step on. -/

theorem pruneFrom_held (held : List Char) (depth : Nat) (text : List Char) :
    pruneFrom used held (depth + 1) text = pruneFrom used [] (depth + 1) text := by
  cases text <;> simp only [pruneFrom]

theorem pruneFrom_other
    {c : Char} (hopen : c ≠ '{') (hclose : c ≠ '}') (held : List Char) (depth : Nat)
    (rest : List Char) :
    pruneFrom used held depth (c :: rest) = pruneFrom used (c :: held) depth rest := by
  cases depth with
  | zero => simp [pruneFrom, hopen, hclose]
  | succ depth => simp [pruneFrom, hopen, hclose, pruneFrom_held (c :: held)]

theorem pruneFrom_skipped_open (held : List Char) (depth : Nat) (rest : List Char) :
    pruneFrom used held (depth + 1) ('{' :: rest) = pruneFrom used [] (depth + 2) rest := by
  simp [pruneFrom]

theorem pruneFrom_skipped_close (held : List Char) (depth : Nat) (rest : List Char) :
    pruneFrom used held (depth + 1) ('}' :: rest) = pruneFrom used [] depth rest := by
  simp [pruneFrom]

theorem pruneFrom_close (held rest : List Char) :
    pruneFrom used held 0 ('}' :: rest) = held.reverse ++ '}' :: pruneFrom used [] 0 rest := by
  simp [pruneFrom]

theorem pruneFrom_open
    {lead selector held : List Char} (hlead : IsLead lead) (hselector : ';' ∉ selector)
    (hheld : held.reverse = lead ++ selector) (rest : List Char) :
    pruneFrom used held 0 ('{' :: rest) =
      if keeps used selector then lead ++ selector ++ '{' :: pruneFrom used [] 0 rest
      else lead ++ pruneFrom used [] 1 rest := by
  rw [pruneFrom, hheld, splitSelector_append hlead hselector]
  rfl

/-! A text without braces is taken at once. -/

theorem pruneFrom_plain {plain : List Char} (hplain : BraceFree plain)
    (held : List Char) (depth : Nat) (rest : List Char) :
    pruneFrom used held depth (plain ++ rest) =
      pruneFrom used (plain.reverse ++ held) depth rest := by
  induction plain generalizing held with
  | nil => rfl
  | cons c plain ih =>
      obtain ⟨hc, hlater⟩ := List.forall_mem_cons.mp hplain
      rw [List.cons_append, pruneFrom_other hc.1 hc.2, ih hlater, List.reverse_cons,
        List.append_assoc, List.singleton_append]

theorem pruneFrom_skipped_plain {plain : List Char} (hplain : BraceFree plain)
    (depth : Nat) (rest : List Char) :
    pruneFrom used [] (depth + 1) (plain ++ rest) = pruneFrom used [] (depth + 1) rest := by
  rw [pruneFrom_plain hplain, pruneFrom_held]

theorem pruneFrom_plain_nil {plain : List Char} (hplain : BraceFree plain) :
    pruneFrom used [] 0 plain = plain := by
  calc
    pruneFrom used [] 0 plain = pruneFrom used [] 0 (plain ++ []) := by rw [List.append_nil]
    _ = pruneFrom used plain.reverse 0 [] := by rw [pruneFrom_plain hplain, List.append_nil]
    _ = plain := by rw [pruneFrom, List.reverse_reverse]

/-- A text that ends with a semicolon is written as it is, whatever is held behind it. -/
theorem pruneFrom_held_lead {lead : List Char} (hlead : IsLead lead) (held text : List Char) :
    pruneFrom used (held ++ lead.reverse) 0 text = lead ++ pruneFrom used held 0 text := by
  induction text generalizing held with
  | nil => simp [pruneFrom]
  | cons c rest ih =>
      have hreverse : (held ++ lead.reverse).reverse = lead ++ held.reverse := by simp
      rw [pruneFrom, pruneFrom, hreverse, splitSelector_lead_append hlead, ← List.cons_append,
        ih (c :: held)]
      simp only [List.append_assoc]
      split
      next => split <;> rfl
      next => split <;> rfl

theorem pruneFrom_lead {lead : List Char} (hlead : IsLead lead) (hfree : BraceFree lead)
    (rest : List Char) :
    pruneFrom used [] 0 (lead ++ rest) = lead ++ pruneFrom used [] 0 rest := by
  rw [pruneFrom_plain hfree, List.append_nil]
  exact pruneFrom_held_lead hlead [] rest

theorem pruneFrom_selector
    {lead selector : List Char} (hlead : IsLead lead) (hselector : ';' ∉ selector)
    (hfree : BraceFree (lead ++ selector)) (rest : List Char) :
    pruneFrom used [] 0 (lead ++ selector ++ '{' :: rest) =
      if keeps used selector then lead ++ selector ++ '{' :: pruneFrom used [] 0 rest
      else lead ++ pruneFrom used [] 1 rest := by
  rw [pruneFrom_plain hfree]
  exact pruneFrom_open hlead hselector (by simp) rest

theorem pruneFrom_closing {plain : List Char} (hplain : BraceFree plain) (rest : List Char) :
    pruneFrom used [] 0 (plain ++ '}' :: rest) = plain ++ '}' :: pruneFrom used [] 0 rest := by
  rw [pruneFrom_plain hplain, pruneFrom_close, List.append_nil, List.reverse_reverse]

theorem pruneFrom_sublist (used : List (List Char)) (held : List Char) (depth : Nat)
    (text : List Char) : (pruneFrom used held depth text).Sublist (held.reverse ++ text) := by
  induction text using brace_induction generalizing held depth with
  | nil =>
      cases depth with
      | zero =>
          rw [pruneFrom_nil]
          exact List.sublist_append_left _ _
      | succ depth => exact List.nil_sublist _
  | opening rest ih =>
      have hrest (depth : Nat) : (pruneFrom used [] depth rest).Sublist rest := ih [] depth
      cases depth with
      | succ depth =>
          rw [pruneFrom_skipped_open]
          exact ((hrest _).cons _).trans (List.sublist_append_right _ _)
      | zero =>
          obtain ⟨lead, selector, hlead, hselector, hsplit⟩ := exists_lead_append held.reverse
          rw [pruneFrom_open hlead hselector hsplit, hsplit]
          split
          next => exact (List.Sublist.refl _).append ((hrest 0).cons_cons _)
          next =>
            rw [List.append_assoc]
            exact (List.Sublist.refl lead).append
              (((hrest 1).cons _).trans (List.sublist_append_right _ _))
  | closing rest ih =>
      have hrest (depth : Nat) : (pruneFrom used [] depth rest).Sublist rest := ih [] depth
      cases depth with
      | succ depth =>
          rw [pruneFrom_skipped_close]
          exact ((hrest _).cons _).trans (List.sublist_append_right _ _)
      | zero =>
          rw [pruneFrom_close]
          exact (List.Sublist.refl _).append ((hrest 0).cons_cons _)
  | other c rest hopen hclose ih =>
      rw [pruneFrom_other hopen hclose]
      have hgrown := ih (c :: held) depth
      rwa [List.reverse_cons, List.append_assoc, List.singleton_append] at hgrown

theorem prune_sublist (used : List (List Char)) (sheet : List Char) :
    (prune used sheet).Sublist sheet :=
  pruneFrom_sublist used [] 0 sheet

/-! ## Two walks -/

theorem keeps_of_subset (hsubset : used ⊆ larger) {selector : List Char}
    (hkeeps : keeps used selector) : keeps larger selector := by
  simp only [keeps, Bool.or_eq_true, List.any_eq_true, List.contains_iff_mem] at hkeeps ⊢
  rcases hkeeps with hother | ⟨name, hname, hused⟩
  · exact .inl hother
  · exact .inr ⟨name, hname, hsubset hused⟩

/-- A walk with more classes goes through what a walk with fewer leaves. -/
theorem pruneFrom_larger (hsubset : used ⊆ larger) {held : List Char}
    (hheld : BraceFree held) (depth : Nat) (text : List Char) :
    pruneFrom larger [] 0 (pruneFrom used held depth text) = pruneFrom used held depth text := by
  induction text using brace_induction generalizing held depth with
  | nil =>
      cases depth with
      | zero => simp only [pruneFrom, pruneFrom_plain_nil hheld.reverse]
      | succ depth => simp only [pruneFrom, List.reverse_nil]
  | opening rest ih =>
      cases depth with
      | succ depth => rw [pruneFrom_skipped_open, ih braceFree_nil]
      | zero =>
          obtain ⟨lead, selector, hlead, hselector, hsplit⟩ := exists_lead_append held.reverse
          have hfree : BraceFree (lead ++ selector) := hsplit ▸ hheld.reverse
          rw [pruneFrom_open hlead hselector hsplit]
          split
          next hkeeps =>
            rw [pruneFrom_selector hlead hselector hfree, if_pos (keeps_of_subset hsubset hkeeps),
              ih braceFree_nil]
          next => rw [pruneFrom_lead hlead hfree.of_append.1, ih braceFree_nil]
  | closing rest ih =>
      cases depth with
      | succ depth => rw [pruneFrom_skipped_close, ih braceFree_nil]
      | zero => rw [pruneFrom_close, pruneFrom_closing hheld.reverse, ih braceFree_nil]
  | other c rest hopen hclose ih =>
      rw [pruneFrom_other hopen hclose]
      exact ih (List.forall_mem_cons.mpr ⟨⟨hopen, hclose⟩, hheld⟩) depth

/-- A walk with fewer classes goes through what a walk with more leaves, and the depths at which
both skip add up. -/
theorem pruneFrom_smaller (hsubset : used ⊆ larger) {held : List Char}
    (hheld : BraceFree held) (depth inner : Nat) (text : List Char) :
    pruneFrom used [] depth (pruneFrom larger held inner text) =
      pruneFrom used held (depth + inner) text := by
  induction text using brace_induction generalizing held depth inner with
  | nil =>
      cases inner with
      | succ inner => cases depth <;> simp only [pruneFrom, List.reverse_nil]
      | zero =>
          cases depth with
          | zero => simp only [pruneFrom, pruneFrom_plain_nil hheld.reverse]
          | succ depth =>
              have hplain : pruneFrom used [] (depth + 1) (held.reverse ++ []) =
                  pruneFrom used [] (depth + 1) [] :=
                pruneFrom_skipped_plain hheld.reverse depth []
              rw [List.append_nil] at hplain
              simp only [pruneFrom, hplain]
  | opening rest ih =>
      cases inner with
      | succ inner =>
          rw [pruneFrom_skipped_open, ih braceFree_nil, ← Nat.add_assoc, ← Nat.add_assoc,
            pruneFrom_skipped_open]
      | zero =>
          obtain ⟨lead, selector, hlead, hselector, hsplit⟩ := exists_lead_append held.reverse
          have hfree : BraceFree (lead ++ selector) := hsplit ▸ hheld.reverse
          rw [pruneFrom_open hlead hselector hsplit, Nat.add_zero]
          cases depth with
          | zero =>
              rw [pruneFrom_open hlead hselector hsplit]
              by_cases hlarger : keeps larger selector
              · rw [if_pos hlarger, pruneFrom_selector hlead hselector hfree,
                  ih braceFree_nil, ih braceFree_nil]
              · have hused : ¬ keeps used selector := fun hkeeps =>
                  hlarger (keeps_of_subset hsubset hkeeps)
                rw [if_neg hlarger, if_neg hused, pruneFrom_lead hlead hfree.of_append.1,
                  ih braceFree_nil]
          | succ depth =>
              rw [pruneFrom_skipped_open]
              split
              next => rw [pruneFrom_skipped_plain hfree, pruneFrom_skipped_open, ih braceFree_nil]
              next => rw [pruneFrom_skipped_plain hfree.of_append.1, ih braceFree_nil]
  | closing rest ih =>
      cases inner with
      | succ inner =>
          rw [pruneFrom_skipped_close, ih braceFree_nil, ← Nat.add_assoc, pruneFrom_skipped_close]
      | zero =>
          rw [pruneFrom_close, Nat.add_zero]
          cases depth with
          | zero => rw [pruneFrom_closing hheld.reverse, pruneFrom_close, ih braceFree_nil]
          | succ depth =>
              rw [pruneFrom_skipped_plain hheld.reverse, pruneFrom_skipped_close,
                pruneFrom_skipped_close, ih braceFree_nil, Nat.add_zero]
  | other c rest hopen hclose ih =>
      have hgrown : BraceFree (c :: held) := List.forall_mem_cons.mpr ⟨⟨hopen, hclose⟩, hheld⟩
      rw [pruneFrom_other hopen hclose, pruneFrom_other hopen hclose, ih hgrown]

/-- Pruning with more classes changes nothing after a pruning with fewer, and nothing before it. -/
theorem prune_prune_of_subset (hsubset : used ⊆ larger) (sheet : List Char) :
    prune larger (prune used sheet) = prune used sheet ∧
      prune used (prune larger sheet) = prune used sheet :=
  ⟨pruneFrom_larger hsubset braceFree_nil 0 sheet,
    pruneFrom_smaller hsubset braceFree_nil 0 0 sheet⟩

/-- A rule in a rule, a statement before a dropped selector, and a missing brace. -/
theorem prune_prune_of_subset_unbalanced :
    [".a".toList] ⊆ [".b".toList, ".a".toList] ∧
      prune [".b".toList, ".a".toList]
          (prune [".a".toList] ".b\x7bx;.c\x7by\x7d\x7d.a\x7b".toList) =
        prune [".a".toList] ".b\x7bx;.c\x7by\x7d\x7d.a\x7b".toList ∧
      prune [".a".toList]
          (prune [".b".toList, ".a".toList] ".b\x7bx;.c\x7by\x7d\x7d.a\x7b".toList) =
        prune [".a".toList] ".b\x7bx;.c\x7by\x7d\x7d.a\x7b".toList :=
  ⟨by decide, prune_prune_of_subset (by decide) _⟩

end Stencil.Sheet
