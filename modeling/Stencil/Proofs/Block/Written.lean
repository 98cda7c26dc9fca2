import Stencil.Data.Table
import Stencil.Block.Attributes
import Stencil.Proofs.Text.Blank
import Stencil.Proofs.Text.Word
import Mathlib.Tactic.Common

/-!
# Attributes as they are written

An attribute is written with its value between quotes that the value does not hold, and with its
key and an equals sign in front if it has one.  A part of a list that begins like this has the key
of the attribute; its value is that of the attribute exactly when the part ends with the value.
-/

namespace Stencil.Block

open Stencil.Text

/-- A name that may stand before an equals sign. -/
def IsKey : List Char → Prop
  | [] => False
  | c :: rest => (c.isAlpha ∨ c = '_') ∧ ∀ d ∈ rest, d.isAlphanum ∨ d = '_' ∨ d = '-'

instance : DecidablePred IsKey
  | [] => .isFalse id
  | c :: rest =>
    decidable_of_iff ((c.isAlpha || c == '_') &&
      rest.all fun d => d.isAlphanum || d == '_' || d == '-') (by simp [IsKey, or_assoc])

/-- An attribute with the quotes between which its value is written. -/
structure Written where
  key : Option (List Char)
  quote : Char
  value : List Char
  isKey : ∀ name ∈ key, IsKey name
  isQuote : Block.isQuote quote = true
  absent : quote ∉ value

namespace Written

def head (item : Written) : List Char :=
  match item.key with
  | none => []
  | some name => name ++ ['=']

def text (item : Written) : List Char :=
  item.head ++ item.quote :: (item.value ++ [item.quote])

/-- The key under which the attribute is found, if it stands at the given place of its list. -/
def keyAt (item : Written) (index : Nat) : AttributeKey :=
  match item.key with
  | none => .place index
  | some name => .name name

end Written

/-! ## What stands before a value -/

theorem isKeyChar_of_isAlpha {c : Char} (halpha : c.isAlpha) : isKeyChar c = true := by
  rw [isKeyChar, isAlpha_isWord halpha, Bool.true_or]

theorem isKeyChar_of_isAlphanum {c : Char} (hc : c.isAlphanum ∨ c = '_' ∨ c = '-') :
    isKeyChar c = true := by
  rcases hc with hc | rfl | rfl
  · rw [Char.isAlphanum, Bool.or_eq_true] at hc
    rcases hc with halpha | hdigit
    · exact isKeyChar_of_isAlpha halpha
    · have hcode : c.toNat < 128 := by
        have hnine : '9'.val.toNat = 57 := rfl
        simp only [Char.isDigit, Bool.and_eq_true, decide_eq_true_eq,
          UInt32.le_iff_toNat_le] at hdigit
        simp only [Char.toNat]
        omega
      simp [isKeyChar, isWord, isAlphanumeric, isNumeric, hcode, hdigit]
  · decide
  · decide

theorem plain_of_isKeyChar {c : Char} (hc : isKeyChar c = true) :
    isQuote c = false ∧ c ≠ ',' ∧ isBlank c = false := by
  refine ⟨?_, ?_, ?_⟩
  · rw [Bool.eq_false_iff]
    intro hquote
    rw [isQuote, Bool.or_eq_true, beq_iff_eq, beq_iff_eq] at hquote
    rcases hquote with rfl | rfl <;> contradiction
  · rintro rfl
    contradiction
  · rw [isKeyChar, Bool.or_eq_true, beq_iff_eq] at hc
    rcases hc with hword | rfl
    · exact isBlank_eq_false_of_isWord hword
    · decide

theorem exists_cons_of_isKey {name : List Char} (hname : IsKey name) :
    ∃ first rest, name = first :: rest := by
  cases name with
  | nil => exact hname.elim
  | cons first rest => exact ⟨first, rest, rfl⟩

theorem IsKey.isKeyChar {name : List Char} (hname : IsKey name) :
    ∀ c ∈ name, isKeyChar c = true := by
  obtain ⟨first, rest, rfl⟩ := exists_cons_of_isKey hname
  obtain ⟨hfirst, hrest⟩ := hname
  rw [List.forall_mem_cons]
  refine ⟨?_, fun c hc => isKeyChar_of_isAlphanum (hrest c hc)⟩
  rcases hfirst with halpha | rfl
  · exact isKeyChar_of_isAlpha halpha
  · decide

theorem isBlank_of_isQuote {quote : Char} (hquote : isQuote quote = true) :
    isBlank quote = false := by
  rw [isQuote, Bool.or_eq_true, beq_iff_eq, beq_iff_eq] at hquote
  rcases hquote with rfl | rfl <;> decide

theorem comma_ne_of_isQuote {quote : Char} (hquote : isQuote quote = true) : quote ≠ ',' := by
  rintro rfl
  contradiction

namespace Written

variable (item : Written)

theorem plain_head : ∀ c ∈ item.head, Block.isQuote c = false ∧ c ≠ ',' := by
  intro c hc
  unfold head at hc
  split at hc
  next => simp at hc
  next name hname =>
    rw [List.mem_append, List.mem_singleton] at hc
    rcases hc with hc | rfl
    · have hplain := plain_of_isKeyChar ((item.isKey name hname).isKeyChar c hc)
      exact ⟨hplain.1, hplain.2.1⟩
    · decide

theorem comma_notMem_head : ',' ∉ item.head := fun hcomma => (item.plain_head ',' hcomma).2 rfl

theorem noBlankFirst_head (body : List Char) : NoBlankFirst (item.head ++ item.quote :: body) := by
  unfold head
  split
  next => exact noBlankFirst_cons (isBlank_of_isQuote item.isQuote)
  next name hname =>
    have hchars := (item.isKey name hname).isKeyChar
    obtain ⟨first, rest, rfl⟩ := exists_cons_of_isKey (item.isKey name hname)
    exact noBlankFirst_cons (plain_of_isKeyChar (hchars first List.mem_cons_self)).2.2

end Written

/-! ## Reading a part -/

def entryAt (index : Nat) (part : List Char) : AttributeKey × List Char :=
  match keyed? (trim part) with
  | some (key, value) => (.name key, unquote value)
  | none => (.place index, unquote part)

/-- The entries of parts of which the first one stands at the given place. -/
def entriesAt (index : Nat) : List (List Char) → Attributes
  | [] => []
  | part :: rest => entryAt index part :: entriesAt (index + 1) rest

theorem length_entriesAt (index : Nat) (parts : List (List Char)) :
    (entriesAt index parts).length = parts.length := by
  induction parts generalizing index with
  | nil => rfl
  | cons part rest ih => rw [entriesAt, List.length_cons, List.length_cons, ih]

theorem addPart_eq (table : Attributes) (index : Nat) (part : List Char) :
    addPart table index part = Table.put table (entryAt index part).1 (entryAt index part).2 := by
  cases hkeyed : keyed? (trim part) <;> simp only [addPart, entryAt, hkeyed]

theorem addParts_eq (table : Attributes) (index : Nat) (parts : List (List Char)) :
    addParts table index parts =
      (entriesAt index parts).foldl (fun table entry => Table.put table entry.1 entry.2) table := by
  induction parts generalizing table index with
  | nil => rfl
  | cons part rest ih => rw [addParts, ih, addPart_eq, entriesAt, List.foldl_cons]

/-- What is left of a value that begins with a quote, without its quotes if it ends with the same
one. -/
def unclosed (quote : Char) (body : List Char) : List Char :=
  if body.getLast? = some quote then body.dropLast else quote :: body

theorem unquote_of_trim
    {value body : List Char} {quote : Char} (hquote : isQuote quote = true)
    (hvalue : trim value = quote :: body) : unquote value = unclosed quote body := by
  rw [unquote, hvalue, unclosed]
  cases body with
  | nil => rfl
  | cons d rest => simp [hquote]

theorem unclosed_eq_iff
    {quote : Char} {body value : List Char} (habsent : quote ∉ value) :
    unclosed quote body = value ↔ body = value ++ [quote] := by
  unfold unclosed
  split
  next hlast =>
    obtain ⟨front, rfl⟩ := List.getLast?_eq_some_iff.mp hlast
    simp
  next hlast =>
    constructor
    · rintro rfl
      simp at habsent
    · rintro rfl
      simp at hlast

theorem trim_written
    {lead : List Char} (hlead : AllBlank lead) (item : Written) (body : List Char) :
    trim (lead ++ (item.head ++ item.quote :: body)) =
      item.head ++ item.quote :: trimEnd body := by
  have hlast : NoBlankFirst (item.head ++ [item.quote]).reverse := by
    rw [List.reverse_append]
    exact noBlankFirst_cons (isBlank_of_isQuote item.isQuote)
  rw [trim, skipBlanks_append hlead (item.noBlankFirst_head body), List.append_cons,
    trimEnd_append_of_noBlankFirst_reverse hlast, ← List.append_cons]

theorem keyed?_key
    {name : List Char} (hname : IsKey name) {quote : Char} (hquote : isQuote quote = true)
    (body : List Char) : keyed? (name ++ '=' :: quote :: body) = some (name, quote :: body) := by
  have hchars := hname.isKeyChar
  obtain ⟨first, rest, rfl⟩ := exists_cons_of_isKey hname
  rw [List.forall_mem_cons] at hchars
  have hbegins : (first.isAlpha || first == '_') = true := by simpa using hname.1
  have hequals : isKeyChar '=' = false := by decide
  have htake : (rest ++ '=' :: quote :: body).takeWhile isKeyChar = rest := by
    rw [List.takeWhile_append_of_pos hchars.2, List.takeWhile_cons_of_neg (by simp [hequals]),
      List.append_nil]
  have hdrop : (rest ++ '=' :: quote :: body).dropWhile isKeyChar = '=' :: quote :: body := by
    rw [List.dropWhile_append_of_pos hchars.2, List.dropWhile_cons_of_neg (by simp [hequals])]
  have hskip : skipBlanks ('=' :: quote :: body) = '=' :: quote :: body :=
    skipBlanks_of_noBlankFirst (noBlankFirst_cons (by decide))
  have hvalue : skipBlanks (quote :: body) = quote :: body :=
    skipBlanks_of_noBlankFirst (noBlankFirst_cons (isBlank_of_isQuote hquote))
  simp only [List.cons_append, keyed?, if_pos hbegins, htake, hdrop, hskip, hvalue]

theorem keyed?_quote {quote : Char} (hquote : isQuote quote = true) (body : List Char) :
    keyed? (quote :: body) = none := by
  have hbegins : (quote.isAlpha || quote == '_') = false := by
    rw [isQuote, Bool.or_eq_true, beq_iff_eq, beq_iff_eq] at hquote
    rcases hquote with rfl | rfl <;> decide
  simp [keyed?, hbegins]

theorem entryAt_written
    {lead : List Char} (hlead : AllBlank lead) (item : Written) (index : Nat) (body : List Char) :
    entryAt index (lead ++ (item.head ++ item.quote :: body)) =
      (item.keyAt index, unclosed item.quote (trimEnd body)) := by
  have htrim := trim_written hlead item body
  rw [entryAt, htrim]
  unfold Written.head Written.keyAt at *
  cases hkey : item.key with
  | none =>
      simp only [hkey, List.nil_append] at htrim ⊢
      rw [keyed?_quote item.isQuote]
      simp only [unquote_of_trim item.isQuote htrim]
  | some name =>
      simp only [List.append_assoc, List.cons_append, List.nil_append]
      rw [keyed?_key (item.isKey name hkey) item.isQuote]
      have hvalue : trim (item.quote :: trimEnd body) = item.quote :: trimEnd body := by
        have hquote := isBlank_of_isQuote item.isQuote
        rw [trim, skipBlanks_of_noBlankFirst (noBlankFirst_cons hquote), trimEnd_cons hquote,
          trimEnd_trimEnd]
      simp only [unquote_of_trim item.isQuote hvalue]

theorem unquote_sublist (value : List Char) : (unquote value).Sublist value := by
  have htrim : (trim value).Sublist value := (trim_isInfix value).sublist
  unfold unquote
  split
  next c d rest hvalue =>
    rw [hvalue] at htrim
    split
    · exact ((List.dropLast_sublist (d :: rest)).trans (List.sublist_cons_self c _)).trans htrim
    · exact htrim
  next => exact htrim

theorem sublist_of_keyed?
    {part key value : List Char} (hkeyed : keyed? part = some (key, value)) :
    value.Sublist part := by
  unfold keyed? at hkeyed
  split at hkeyed
  next => contradiction
  next c rest =>
    split at hkeyed
    next =>
      split at hkeyed
      next value' hvalue =>
        rw [Option.some.injEq, Prod.mk.injEq] at hkeyed
        obtain ⟨-, rfl⟩ := hkeyed
        have hrest : ('=' :: value').Sublist rest := by
          rw [← hvalue]
          exact (skipBlanks_suffix _).sublist.trans (List.dropWhile_suffix _).sublist
        exact (((skipBlanks_suffix value').sublist.trans (List.sublist_cons_self _ _)).trans
          hrest).trans (List.sublist_cons_self c rest)
      next => contradiction
    next => contradiction

theorem entryAt_sublist (index : Nat) (part : List Char) :
    (entryAt index part).2.Sublist part := by
  unfold entryAt
  split
  next key value hkeyed =>
    exact ((unquote_sublist value).trans (sublist_of_keyed? hkeyed)).trans
      (trim_isInfix part).sublist
  next => exact unquote_sublist part

end Stencil.Block
