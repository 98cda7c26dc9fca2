import Stencil.Proofs.Block.Parts
import Stencil.Proofs.Block.Written
import Stencil.Proofs.Data.Table
import Stencil.Proofs.Text.Split

/-!
# Attributes that are written and read again

The attributes of a tag are written with a comma and a space between them.  Reading such a list
gives the attributes back exactly when no quotes of the other kind disturb the count that decides
which commas separate.

That nothing else gives them back is seen by counting commas: as many parts as attributes can be
had only if no part is lost to a later one, and then the parts are the attributes one by one.
-/

namespace Stencil.Block

open Stencil.Text

/-! ## The written list -/

def writtenList (items : List Written) : List Char :=
  List.intercalate [',', ' '] (items.map Written.text)

/-- The entries of attributes of which the first one stands at the given place. -/
def entriesFrom (index : Nat) : List Written → Attributes
  | [] => []
  | item :: rest => (item.keyAt index, item.value) :: entriesFrom (index + 1) rest

/-- What follows a comma in the text holds an even number of quotes. -/
def EvenBehindCommas (text : List Char) : Prop :=
  ∀ before after, text = before ++ ',' :: after → EvenQuotes after

/-- Quotes of the other kind disturb nothing: each value but the first holds an even number of
them, and so does what follows a comma in a value. -/
def Readable (items : List Written) : Prop :=
  (∀ item ∈ items.tail, EvenQuotes item.value) ∧ ∀ item ∈ items, EvenBehindCommas item.value

/-- The parts of the written list, the first one with the given blanks before it. -/
def pieces (lead : List Char) : List Written → List (List Char)
  | [] => []
  | item :: rest => (lead ++ item.text) :: pieces [' '] rest

def joined (lead : List Char) (items : List Written) : List Char :=
  List.intercalate [','] (pieces lead items)

theorem joined_singleton (lead : List Char) (item : Written) :
    joined lead [item] = lead ++ item.text := by
  simp [joined, pieces, List.intercalate]

theorem joined_cons_cons (lead : List Char) (item next : Written) (rest : List Written) :
    joined lead (item :: next :: rest) =
      (lead ++ item.text) ++ ',' :: joined [' '] (next :: rest) := by
  have hrest : pieces [' '] (next :: rest) ≠ [] := List.cons_ne_nil _ _
  rw [joined, pieces, intercalate_cons hrest, List.append_assoc]
  rfl

theorem writtenList_eq_joined (items : List Written) : writtenList items = joined [] items := by
  have hrest (lead : List Char) (items : List Written) (hitems : items ≠ []) :
      joined lead items = lead ++ writtenList items := by
    induction items generalizing lead with
    | nil => contradiction
    | cons item rest ih =>
        cases rest with
        | nil => simp [joined_singleton, writtenList, List.intercalate]
        | cons next rest =>
            have hlater : (next :: rest).map Written.text ≠ [] := by simp
            have hwritten : writtenList (item :: next :: rest) =
                item.text ++ [',', ' '] ++ writtenList (next :: rest) :=
              intercalate_cons hlater [',', ' '] item.text
            rw [joined_cons_cons, ih [' '] (List.cons_ne_nil _ _), hwritten]
            simp
  cases items with
  | nil => rfl
  | cons item rest => rw [hrest [] _ (List.cons_ne_nil _ _), List.nil_append]

/-! ## The keys of the attributes -/

theorem mem_keys_entriesFrom {index : Nat} {items : List Written} {key : AttributeKey}
    (hkey : key ∈ Table.keys (entriesFrom index items)) :
    (∃ place, index ≤ place ∧ key = .place place) ∨
      ∃ name ∈ items.filterMap Written.key, key = .name name := by
  induction items generalizing index with
  | nil => simp [entriesFrom, Table.keys] at hkey
  | cons item rest ih =>
      simp only [entriesFrom, Table.keys, List.map_cons, List.mem_cons] at hkey
      rcases hkey with rfl | hlater
      · unfold Written.keyAt
        split
        next => exact .inl ⟨index, Nat.le_refl index, rfl⟩
        next name hname =>
          exact .inr ⟨name, List.mem_filterMap.mpr ⟨item, List.mem_cons_self, hname⟩, rfl⟩
      · rcases ih hlater with ⟨place, hplace, rfl⟩ | ⟨name, hname, rfl⟩
        · exact .inl ⟨place, Nat.le_of_succ_le hplace, rfl⟩
        · rw [List.mem_filterMap] at hname
          obtain ⟨found, hfound, hname⟩ := hname
          have hmem := List.mem_filterMap.mpr ⟨found, List.mem_cons_of_mem item hfound, hname⟩
          exact .inr ⟨name, hmem, rfl⟩

theorem nodup_keys_entriesFrom
    (index : Nat) {items : List Written} (hkeys : (items.filterMap Written.key).Nodup) :
    (Table.keys (entriesFrom index items)).Nodup := by
  induction items generalizing index with
  | nil => exact List.nodup_nil
  | cons item rest ih =>
      have hrest : (rest.filterMap Written.key).Nodup :=
        hkeys.sublist ((List.sublist_cons_self item rest).filterMap _)
      simp only [entriesFrom, Table.keys, List.map_cons, List.nodup_cons]
      refine ⟨fun hmem => ?_, ih (index + 1) hrest⟩
      unfold Written.keyAt at hmem
      split at hmem
      next =>
        rcases mem_keys_entriesFrom hmem with ⟨place, hplace, hsame⟩ | ⟨name, -, hsame⟩
        · rw [AttributeKey.place.injEq] at hsame
          omega
        · contradiction
      next name hname =>
        rcases mem_keys_entriesFrom hmem with ⟨place, -, hsame⟩ | ⟨other, hother, hsame⟩
        · contradiction
        · rw [AttributeKey.name.injEq] at hsame
          subst hsame
          rw [List.filterMap_cons_some hname, List.nodup_cons] at hkeys
          exact hkeys.1 hother

/-! ## Which parts the written list has -/

theorem allBlank_nil : AllBlank [] := by
  simp [AllBlank]

theorem allBlank_space : AllBlank [' '] := by
  simp [AllBlank, isBlank]

theorem comma_notMem_of_allBlank {lead : List Char} (hlead : AllBlank lead) : ',' ∉ lead := by
  intro hcomma
  have hblank := hlead ',' hcomma
  contradiction

theorem evenQuotes_of_allBlank {lead : List Char} (hlead : AllBlank lead) : EvenQuotes lead := by
  refine evenQuotes_of_plain fun c hc => ?_
  rw [Bool.eq_false_iff]
  intro hquote
  have hblank := hlead c hc
  rw [isBlank_of_isQuote hquote] at hblank
  contradiction

theorem evenQuotes_concat {quote : Char} (hquote : isQuote quote = true) (text : List Char) :
    EvenQuotes (text ++ [quote]) ↔ ¬ EvenQuotes text := by
  simp [EvenQuotes, List.countP_append, hquote, Nat.even_add_one]

theorem joined_append {front piece rest : List Char} (hfront : ',' ∉ front) :
    Joined (front ++ piece) rest ↔ Joined piece rest := by
  induction front with
  | nil => rfl
  | cons c front ih =>
      rw [List.mem_cons, not_or] at hfront
      rw [List.cons_append, joined_cons, ih hfront.2]
      exact and_iff_right fun hcomma => absurd hcomma.symm hfront.1

theorem joined_concat_iff {value behind : List Char} {quote : Char} (hquote : isQuote quote = true)
    (hbehind : EvenQuotes behind) : Joined (value ++ [quote]) behind ↔ EvenBehindCommas value := by
  have hparity (after : List Char) :
      ¬ EvenQuotes (after ++ [quote] ++ behind) ↔ EvenQuotes after := by
    rw [evenQuotes_append_of_even hbehind, evenQuotes_concat hquote, not_not]
  constructor
  · rintro hjoined before after rfl
    exact (hparity after).mp (hjoined before (after ++ [quote]) (by simp))
  · intro hvalue before after hsplit
    rcases concat_eq_append_cons_iff.mp hsplit with ⟨-, hlast, -⟩ | ⟨inner, rfl, hvalue'⟩
    · exact absurd hlast (comma_ne_of_isQuote hquote)
    · exact (hparity inner).mpr (hvalue before inner hvalue')

theorem comma_notMem_opening {lead : List Char} (hlead : AllBlank lead) (item : Written) :
    ',' ∉ lead ++ item.head ++ [item.quote] := by
  simp only [List.mem_append, List.mem_singleton, not_or]
  exact ⟨⟨comma_notMem_of_allBlank hlead, item.comma_notMem_head⟩,
    (comma_ne_of_isQuote item.isQuote).symm⟩

/-- No comma of a written attribute separates exactly when an even number of quotes stands behind
each comma of its value. -/
theorem joined_text_iff {lead behind : List Char} (hlead : AllBlank lead) (item : Written)
    (hbehind : EvenQuotes behind) :
    Joined (lead ++ item.text) behind ↔ EvenBehindCommas item.value := by
  have htext : lead ++ item.text =
      lead ++ item.head ++ [item.quote] ++ (item.value ++ [item.quote]) := by
    simp [Written.text]
  rw [htext, joined_append (comma_notMem_opening hlead item),
    joined_concat_iff item.isQuote hbehind]

theorem evenQuotes_text_iff {lead : List Char} (hlead : AllBlank lead) (item : Written) :
    EvenQuotes (lead ++ item.text) ↔ EvenQuotes item.value := by
  have hhead : EvenQuotes item.head := evenQuotes_of_plain fun c hc => (item.plain_head c hc).1
  have hquotes : EvenQuotes (item.quote :: (item.value ++ [item.quote])) ↔
      EvenQuotes item.value := by
    simp [EvenQuotes, List.countP_append, item.isQuote, Nat.even_add_one]
  rw [Written.text, evenQuotes_append (evenQuotes_of_allBlank hlead), evenQuotes_append hhead,
    hquotes]

theorem evenQuotes_comma : EvenQuotes [','] :=
  evenQuotes_of_plain (by simp [isQuote])

theorem evenQuotes_joined_iff {lead : List Char} (hlead : AllBlank lead) (item : Written)
    {rest : List Written} (hrest : ∀ later ∈ rest, EvenQuotes later.value) :
    EvenQuotes (joined lead (item :: rest)) ↔ EvenQuotes item.value := by
  induction rest generalizing lead item with
  | nil => rw [joined_singleton, evenQuotes_text_iff hlead]
  | cons next rest ih =>
      rw [List.forall_mem_cons] at hrest
      have hlater : EvenQuotes (joined [' '] (next :: rest)) :=
        (ih allBlank_space next hrest.2).mpr hrest.1
      rw [joined_cons_cons, List.append_cons, evenQuotes_append_of_even hlater,
        evenQuotes_append_of_even evenQuotes_comma, evenQuotes_text_iff hlead]

/-- The parts of a written list are its attributes exactly when it is readable. -/
theorem parts_joined_eq_iff {lead : List Char} (hlead : AllBlank lead) (item : Written)
    (rest : List Written) :
    parts (joined lead (item :: rest)) = pieces lead (item :: rest) ↔ Readable (item :: rest) := by
  induction rest generalizing lead item with
  | nil =>
      rw [joined_singleton, pieces, pieces, parts_eq_singleton_iff,
        joined_text_iff hlead item (evenQuotes_of_plain (by simp))]
      simp [Readable]
  | cons next rest ih =>
      rw [joined_cons_cons, pieces, parts_append_comma_eq_iff, ih allBlank_space next]
      have hjoined (heven : EvenQuotes (joined [' '] (next :: rest))) :
          Joined (lead ++ item.text) (',' :: joined [' '] (next :: rest)) ↔
            EvenBehindCommas item.value :=
        joined_text_iff hlead item ((evenQuotes_append evenQuotes_comma).mpr heven)
      simp only [Readable, List.tail_cons, List.forall_mem_cons]
      constructor
      · rintro ⟨hitem, heven, hrest, hcommas⟩
        exact ⟨⟨(evenQuotes_joined_iff allBlank_space next hrest).mp heven, hrest⟩,
          (hjoined heven).mp hitem, hcommas⟩
      · rintro ⟨⟨hnext, hrest⟩, hitem, hcommas⟩
        have heven := (evenQuotes_joined_iff allBlank_space next hrest).mpr hnext
        exact ⟨(hjoined heven).mpr hitem, heven, hrest, hcommas⟩

/-! ## Reading the written list -/

theorem exists_joined_eq (lead : List Char) (item : Written) (rest : List Written) :
    ∃ behind, (∀ c ∈ behind.head?, c = ',') ∧ joined lead (item :: rest) =
      lead ++ (item.head ++ item.quote :: (item.value ++ [item.quote] ++ behind)) := by
  cases rest with
  | nil => exact ⟨[], by simp, by simp [joined_singleton, Written.text]⟩
  | cons next rest =>
      exact ⟨',' :: joined [' '] (next :: rest), by simp, by simp [joined_cons_cons, Written.text]⟩

theorem attributes_joined (item : Written) (rest : List Written) :
    attributes (some (joined [] (item :: rest))) =
      Table.ofList (entriesAt 0 (parts (joined [] (item :: rest)))) := by
  obtain ⟨behind, -, hwhole⟩ := exists_joined_eq [] item rest
  have htrim : (trim (joined [] (item :: rest))).isEmpty = false := by
    rw [hwhole, trim_written allBlank_nil]
    simp
  rw [attributes, htrim, if_neg Bool.false_ne_true, addParts_eq]
  rfl

theorem entriesAt_pieces {lead : List Char} (hlead : AllBlank lead) (index : Nat)
    (items : List Written) : entriesAt index (pieces lead items) = entriesFrom index items := by
  induction items generalizing lead index with
  | nil => rfl
  | cons item rest ih =>
      have hvalue : unclosed item.quote (trimEnd (item.value ++ [item.quote])) = item.value := by
        have hend : trimEnd (item.value ++ [item.quote]) = item.value ++ [item.quote] := by
          rw [trimEnd_eq_self_iff]
          simpa using isBlank_of_isQuote item.isQuote
        rw [hend, unclosed_eq_iff item.absent]
      rw [pieces, entriesAt, entriesFrom, ih allBlank_space, Written.text, entryAt_written hlead,
        hvalue]

theorem attributes_writtenList {items : List Written}
    (hkeys : (items.filterMap Written.key).Nodup) (hread : Readable items) :
    attributes (some (writtenList items)) = entriesFrom 0 items := by
  rw [writtenList_eq_joined]
  cases items with
  | nil => rfl
  | cons item rest =>
      rw [attributes_joined, (parts_joined_eq_iff allBlank_nil item rest).mpr hread,
        entriesAt_pieces allBlank_nil, Table.ofList_eq_self (nodup_keys_entriesFrom 0 hkeys)]

/-! ## Counting the commas -/

theorem weight_entriesAt_le (index : Nat) (parts : List (List Char)) :
    Table.weight (List.count ',') (entriesAt index parts) ≤
      (parts.map (List.count ',')).sum := by
  induction parts generalizing index with
  | nil => exact Nat.le_refl 0
  | cons part rest ih =>
      have hpart := (entryAt_sublist index part).count_le ','
      have hrest := ih (index + 1)
      simp only [entriesAt, Table.weight, List.map_cons, List.sum_cons] at hrest ⊢
      omega

theorem count_text {lead : List Char} (hlead : AllBlank lead) (item : Written) :
    (lead ++ item.text).count ',' = item.value.count ',' := by
  have hquote : [item.quote].count ',' = 0 :=
    List.count_eq_zero.mpr (by simpa using (comma_ne_of_isQuote item.isQuote).symm)
  have hblanks := List.count_eq_zero.mpr (comma_notMem_of_allBlank hlead)
  have hhead := List.count_eq_zero.mpr item.comma_notMem_head
  rw [Written.text, ← List.singleton_append]
  simp only [List.count_append, hquote, hblanks, hhead]
  omega

theorem count_joined {lead : List Char} (hlead : AllBlank lead) (index : Nat) (item : Written)
    (rest : List Written) :
    (joined lead (item :: rest)).count ',' =
      Table.weight (List.count ',') (entriesFrom index (item :: rest)) + rest.length := by
  induction rest generalizing lead index item with
  | nil => simp [joined_singleton, count_text hlead, entriesFrom, Table.weight]
  | cons next rest ih =>
      have hrest := ih allBlank_space (index + 1) next
      rw [joined_cons_cons, List.count_append, List.count_cons_self, count_text hlead, hrest]
      simp only [entriesFrom, Table.weight, List.map_cons, List.sum_cons, List.length_cons]
      omega

theorem length_entriesFrom (index : Nat) (items : List Written) :
    (entriesFrom index items).length = items.length := by
  induction items generalizing index with
  | nil => rfl
  | cons item rest ih => rw [entriesFrom, List.length_cons, List.length_cons, ih]

/-- If the first part is an attribute of the list, it is the first one: it has the key of the first
attribute, so it has its value as well, and it ends where the value does. -/
theorem eq_text_of_parts
    {all : Attributes} (hall : (Table.keys all).Nodup) {lead behind text : List Char}
    (hlead : AllBlank lead) {item : Written} {index : Nat} (hbehind : ∀ c ∈ behind.head?, c = ',')
    (htext : text = lead ++ (item.head ++ item.quote :: (item.value ++ [item.quote] ++ behind)))
    (hitem : (item.keyAt index, item.value) ∈ all) {first : List Char} {later : List (List Char)}
    (hparts : parts text = first :: later) (hfirst : entryAt index first ∈ all) :
    first = lead ++ item.text := by
  obtain ⟨found, after, hfound⟩ := exists_parts (item.value ++ [item.quote] ++ behind)
  have hwhole : text =
      lead ++ item.head ++ [item.quote] ++ (item.value ++ [item.quote] ++ behind) := by
    rw [htext]
    simp
  rw [hwhole, parts_append_of_comma_notMem (comma_notMem_opening hlead item) hfound,
    List.cons.injEq] at hparts
  obtain ⟨rfl, rfl⟩ := hparts
  have hshape : lead ++ item.head ++ [item.quote] ++ found =
      lead ++ (item.head ++ item.quote :: found) := by simp
  rw [hshape, entryAt_written hlead] at hfirst
  have hvalue : unclosed item.quote (trimEnd found) = item.value := by
    have hown := (Table.get?_eq_some_iff hall).mpr hitem
    rw [(Table.get?_eq_some_iff hall).mpr hfirst, Option.some.injEq] at hown
    exact hown
  rw [unclosed_eq_iff item.absent] at hvalue
  obtain ⟨gap, hgap, hend⟩ := exists_eq_trimEnd_append found
  rw [hvalue] at hend
  have hprefix : gap <+: behind := by
    have hpart := isPrefix_of_parts hfound
    rwa [hend, List.prefix_append_right_inj] at hpart
  have hnil : gap = [] := by
    cases gap with
    | nil => rfl
    | cons c gap =>
        obtain ⟨rest, rfl⟩ := hprefix
        obtain rfl : c = ',' := hbehind c (by simp)
        exact absurd List.mem_cons_self (comma_notMem_of_allBlank hgap)
  rw [hshape, hend, hnil, List.append_nil, Written.text]

theorem exists_parts_joined
    {all : Attributes} (hall : (Table.keys all).Nodup) {lead : List Char} (hlead : AllBlank lead)
    {index : Nat} {item : Written} {rest : List Written}
    (hitems : entriesFrom index (item :: rest) ⊆ all)
    (hparts : entriesAt index (parts (joined lead (item :: rest))) ⊆ all) :
    ∃ later,
      parts (joined lead (item :: rest)) = (lead ++ item.text) :: later ∧
        entriesAt (index + 1) later ⊆ all := by
  obtain ⟨behind, hbehind, hwhole⟩ := exists_joined_eq lead item rest
  obtain ⟨first, later, hfirst⟩ := exists_parts (joined lead (item :: rest))
  rw [hfirst] at hparts
  have hpart := eq_text_of_parts hall hlead hbehind hwhole (hitems List.mem_cons_self) hfirst
    (hparts List.mem_cons_self)
  exact ⟨later, by rw [hfirst, hpart], (List.cons_subset.mp hparts).2⟩

/-- If every part is an attribute of the list, the parts are the attributes one by one. -/
theorem parts_eq_pieces
    {all : Attributes} (hall : (Table.keys all).Nodup) {lead : List Char} (hlead : AllBlank lead)
    {index : Nat} {item : Written} {rest : List Written}
    (hitems : entriesFrom index (item :: rest) ⊆ all)
    (hparts : entriesAt index (parts (joined lead (item :: rest))) ⊆ all) :
    parts (joined lead (item :: rest)) = pieces lead (item :: rest) := by
  induction rest generalizing lead index item with
  | nil =>
      obtain ⟨later, hfirst, -⟩ := exists_parts_joined hall hlead hitems hparts
      rw [joined_singleton] at hfirst ⊢
      rw [hfirst, later_eq_nil_of_parts hfirst]
      rfl
  | cons next rest ih =>
      obtain ⟨later, hfirst, hbehind⟩ := exists_parts_joined hall hlead hitems hparts
      rw [joined_cons_cons, parts_append_comma_eq_iff] at hfirst
      obtain ⟨hjoined, heven, rfl⟩ := hfirst
      have hrest := ih allBlank_space (List.cons_subset.mp hitems).2 hbehind
      rw [pieces, joined_cons_cons, parts_append_comma_eq_iff]
      exact ⟨hjoined, heven, hrest⟩

/-- A list that gives back its attributes was split between them: its commas leave room for no more
parts, and a part less would be an attribute less. -/
theorem readable_of_get?_eq {items : List Written} (hkeys : (items.filterMap Written.key).Nodup)
    (hget : ∀ key, Table.get? (attributes (some (writtenList items))) key =
      Table.get? (entriesFrom 0 items) key) : Readable items := by
  rw [writtenList_eq_joined] at hget
  cases items with
  | nil => simp [Readable]
  | cons item rest =>
      have hall := nodup_keys_entriesFrom 0 hkeys
      rw [attributes_joined] at hget
      have hperm := Table.perm_of_get?_eq (Table.nodup_keys_ofList _) hall hget
      have hcount := count_joined allBlank_nil 0 item rest
      have hparts := count_parts (joined [] (item :: rest))
      have hentries := weight_entriesAt_le 0 (parts (joined [] (item :: rest)))
      have hlength := length_entriesAt 0 (parts (joined [] (item :: rest)))
      have htable := Table.weight_ofList_le (List.count ',')
        (entriesAt 0 (parts (joined [] (item :: rest))))
      have hweight : Table.weight (List.count ',')
          (Table.ofList (entriesAt 0 (parts (joined [] (item :: rest))))) =
            Table.weight (List.count ',') (entriesFrom 0 (item :: rest)) :=
        (hperm.map _).sum_nat
      have hsize := hperm.length_eq
      rw [length_entriesFrom, List.length_cons] at hsize
      rw [Table.ofList_eq_self_of_length_le (by omega)] at hperm
      rw [← parts_joined_eq_iff allBlank_nil]
      exact parts_eq_pieces hall allBlank_nil (List.Subset.refl _) hperm.subset

/-! ## The round trip -/

/-- A written list gives back its attributes, each under its key or its place, exactly when it is
readable. -/
theorem attributes_writtenList_iff
    {items : List Written} (hkeys : (items.filterMap Written.key).Nodup) :
    (∀ key, Table.get? (attributes (some (writtenList items))) key =
      Table.get? (entriesFrom 0 items) key) ↔ Readable items := by
  refine ⟨readable_of_get?_eq hkeys, fun hread key => ?_⟩
  rw [attributes_writtenList hkeys hread]

/-- An apostrophe in the first value, and a comma with quotes before it in the second. -/
def quoted : List Written :=
  [⟨none, '"', "it's".toList, by decide, rfl, by decide⟩,
    ⟨some "on-click".toList, '\'', "say(\"a\", b)".toList, by decide, rfl, by decide⟩]

theorem attributes_writtenList_iff_quoted :
    (quoted.filterMap Written.key).Nodup ∧ Readable quoted ∧
      ∀ key, Table.get? (attributes (some (writtenList quoted))) key =
        Table.get? (entriesFrom 0 quoted) key := by
  have hkeys : (quoted.filterMap Written.key).Nodup := by decide
  have hread : attributes (some (writtenList quoted)) = entriesFrom 0 quoted := by decide +kernel
  have hget (key : AttributeKey) : Table.get? (attributes (some (writtenList quoted))) key =
      Table.get? (entriesFrom 0 quoted) key := by rw [hread]
  exact ⟨hkeys, (attributes_writtenList_iff hkeys).mp hget, hget⟩

/-- An apostrophe in a later value keeps the comma before it from separating. -/
theorem attributes_writtenList_ne_of_apostrophe :
    ∃ items : List Written, (items.filterMap Written.key).Nodup ∧
      ∃ key, Table.get? (attributes (some (writtenList items))) key ≠
        Table.get? (entriesFrom 0 items) key :=
  ⟨[⟨none, '"', "a".toList, by decide, rfl, by decide⟩,
    ⟨none, '"', "it's".toList, by decide, rfl, by decide⟩], by decide, .place 1, by decide +kernel⟩

end Stencil.Block
