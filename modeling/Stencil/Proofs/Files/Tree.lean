import Stencil.Files.Tree
import Stencil.Proofs.Except
import Stencil.Proofs.Files.Path

/-!
# Following paths in a tree

In a tree without links a path that can be followed leads to the place that its spelling means, and
a path to a file ends in a name.
-/

namespace Stencil.Files

open Stencil.Text

def IsEntryName (name : List Char) : Prop :=
  Path.isIdleName name = false ∧ name ≠ ['.', '.'] ∧ '/' ∉ name ∧ '\x00' ∉ name

instance (name : List Char) : Decidable (IsEntryName name) :=
  inferInstanceAs (Decidable (_ ∧ _))

namespace Tree

/-- Names are names of entries, and a file is no directory. -/
structure Sound (tree : Tree) : Prop where
  home : ∀ name ∈ tree.home, IsEntryName name
  entries : ∀ entry ∈ tree.entries, ∀ name ∈ entry.1, IsEntryName name
  files : ∀ entry ∈ tree.entries, entry.2 ≠ .directory → tree.isDirectory entry.1 = false

instance (tree : Tree) : Decidable tree.Sound :=
  decidable_of_iff
    ((∀ name ∈ tree.home, IsEntryName name) ∧
      (∀ entry ∈ tree.entries, ∀ name ∈ entry.1, IsEntryName name) ∧
      ∀ entry ∈ tree.entries, entry.2 ≠ .directory → tree.isDirectory entry.1 = false)
    ⟨fun ⟨home, entries, files⟩ => ⟨home, entries, files⟩,
      fun ⟨home, entries, files⟩ => ⟨home, entries, files⟩⟩

variable {tree : Tree} {here place : Place} {names : List (List Char)} {path : Path}

/-! ## Directories -/

theorem mem_entries_of_some {entry : Entry} (hentry : tree.entry? place = some entry) :
    (place, entry) ∈ tree.entries := by
  obtain ⟨⟨found, value⟩, hfound, rfl⟩ := Option.map_eq_some_iff.mp hentry
  have hplace : found = place := by simpa using List.find?_some hfound
  rw [← hplace]
  exact List.mem_of_find?_eq_some hfound

theorem entry?_of_file? {text : Option (List Char)} (hfile : tree.file? place = some text) :
    tree.entry? place = some (.file text) := by
  rw [file?] at hfile
  split at hfile
  next hentry => rw [hentry, Option.some.inj hfile]
  next => contradiction

theorem Sound.isDirectory_of_file?
    (hsound : tree.Sound) {text : Option (List Char)} (hfile : tree.file? place = some text) :
    tree.isDirectory place = false :=
  hsound.files _ (mem_entries_of_some (entry?_of_file? hfile)) (by simp)

theorem isDirectory_iff :
    tree.isDirectory place = true ↔
      tree.entry? place = some .directory ∨ place <+: tree.home ∨
        ∃ entry ∈ tree.entries, place <+: entry.1 ∧ place ≠ entry.1 := by
  rw [isDirectory, Bool.or_eq_true, Bool.or_eq_true, beq_iff_eq, List.isPrefixOf_iff_prefix,
    List.any_eq_true, or_assoc]
  simp only [Bool.and_eq_true, List.isPrefixOf_iff_prefix, bne_iff_ne]

theorem isDirectory_above
    {above : Place} (habove : above <+: here) (hhere : tree.isDirectory here = true) :
    tree.isDirectory above = true := by
  by_cases hsame : above = here
  · rwa [hsame]
  · rw [isDirectory_iff] at hhere ⊢
    rcases hhere with hentry | hhome | ⟨entry, hentry, hbelow, hne⟩
    · exact .inr (.inr ⟨_, mem_entries_of_some hentry, habove, hsame⟩)
    · exact .inr (.inl (habove.trans hhome))
    · refine .inr (.inr ⟨entry, hentry, habove.trans hbelow, ?_⟩)
      rintro rfl
      exact hne (hbelow.eq_of_length_le habove.length_le)

theorem isDirectory_start (tree : Tree) (rooted : Bool) :
    tree.isDirectory (if rooted then [] else tree.home) = true := by
  apply isDirectory_iff.mpr
  split
  · exact .inr (.inl List.nil_prefix)
  · exact .inr (.inl List.prefix_rfl)

/-! ## Following names -/

theorem follow_cons_eq_ok_iff {name : List Char} :
    tree.follow here (name :: names) = .ok place ↔
      tree.isDirectory here = true ∧
        tree.follow (if name == ['.', '.'] then here.dropLast else here ++ [name]) names =
          .ok place := by
  rw [follow]
  split
  next hdirectory => simp [hdirectory]
  next hnot => split <;> simp [hnot]

theorem follow_append_eq_ok_iff {front back : List (List Char)} :
    tree.follow here (front ++ back) = .ok place ↔
      ∃ between, tree.follow here front = .ok between ∧ tree.follow between back = .ok place := by
  induction front generalizing here with
  | nil => simp [follow]
  | cons name front ih =>
      rw [List.cons_append, follow_cons_eq_ok_iff, ih]
      simp only [follow_cons_eq_ok_iff, and_assoc, exists_and_left]

theorem eq_resolveNames_of_follow (hfollow : tree.follow here names = .ok place) :
    place = Path.resolveNames here.reverse names := by
  induction names generalizing here with
  | nil =>
      rw [follow, Except.ok.injEq] at hfollow
      rw [Path.resolveNames, List.reverse_reverse, hfollow]
  | cons name rest ih =>
      have hplace := ih (follow_cons_eq_ok_iff.mp hfollow).2
      rw [Path.resolveNames]
      by_cases hname : (name == ['.', '.']) = true
      · rw [if_pos hname] at hplace ⊢
        rw [hplace, List.drop_one, List.tail_reverse]
      · rw [if_neg hname] at hplace ⊢
        rw [hplace, List.reverse_append, List.reverse_singleton, List.singleton_append]

theorem locate_eq_ok_iff :
    tree.locate path = .ok place ↔
      path.hasNull = false ∧
        tree.follow (if path.rooted then [] else tree.home) path.names = .ok place := by
  rw [locate]
  cases path.hasNull <;> simp

theorem eq_resolve_of_locate
    (hhome : ['.', '.'] ∉ tree.home) (hlocate : tree.locate path = .ok place) :
    place = tree.resolve path := by
  have hstart : ['.', '.'] ∉ if path.rooted then [] else tree.home := by
    split
    · exact List.not_mem_nil
    · exact hhome
  rw [resolve, Path.resolveNames_append, Path.resolveNames_of_notMem hstart]
  exact eq_resolveNames_of_follow (locate_eq_ok_iff.mp hlocate).2

theorem Sound.resolve_of_locate (hsound : tree.Sound) (hlocate : tree.locate path = .ok place) :
    tree.resolve path = place :=
  (eq_resolve_of_locate (fun hmem => (hsound.home _ hmem).2.1 rfl) hlocate).symm

/-! ## Reading files -/

theorem resolve_of_names
    {front : List (List Char)} {name : List Char} (hnames : path.names = front ++ [name])
    (hname : name ≠ ['.', '.']) (tree : Tree) :
    tree.resolve path = tree.resolve path.parent ++ [name] := by
  rw [resolve, resolve, Path.parent, hnames, ← List.append_assoc, Path.resolveNames_concat hname,
    List.dropLast_concat]

/-- The path of a file ends in a name, and all its names are names that something has. -/
structure LeadsToFile (tree : Tree) (path : Path) : Prop where
  file : (tree.file? (tree.resolve path)).isSome
  name : ∃ front last, path.names = front ++ [last] ∧ last ≠ ['.', '.']
  clean : ∀ name ∈ path.names, '\x00' ∉ name

theorem LeadsToFile.dropLast_resolve (hfile : tree.LeadsToFile path) :
    (tree.resolve path).dropLast = tree.resolve path.parent := by
  obtain ⟨front, last, hnames, hlast⟩ := hfile.name
  rw [resolve_of_names hnames hlast, List.dropLast_concat]

theorem hasNull_eq_false_of_readText
    {found : Except Problem (List Char)} (hread : tree.readText path = found)
    (hfound : found ≠ .error .nullCharacter) : path.hasNull = false := by
  rw [← Bool.not_eq_true]
  intro hnull
  apply hfound
  rw [← hread, readText, readExact, locate, if_pos hnull]
  rfl

theorem exists_file?_of_readText {text : List Char} (hread : tree.readText path = .ok text) :
    ∃ place, tree.locate path = .ok place ∧ (tree.file? place).isSome := by
  rw [readText] at hread
  cases hexact : tree.readExact path with
  | error problem =>
      rw [hexact] at hread
      contradiction
  | ok exact =>
      obtain ⟨place, hplace, hfile⟩ := bind_eq_ok_iff.mp hexact
      refine ⟨place, hplace, ?_⟩
      split at hfile
      next found heq => rw [heq]; rfl
      next => contradiction
      next => split at hfile <;> contradiction

theorem Sound.names_of_file
    (hsound : tree.Sound) (hlocate : tree.locate path = .ok place)
    (hfile : (tree.file? place).isSome) :
    ∃ front last, path.names = front ++ [last] ∧ last ≠ ['.', '.'] := by
  obtain ⟨text, hfile⟩ := Option.isSome_iff_exists.mp hfile
  have hnot := hsound.isDirectory_of_file? hfile
  replace hlocate := (locate_eq_ok_iff.mp hlocate).2
  rcases path.names.eq_nil_or_concat with hnil | ⟨front, last, hnames⟩
  · have hstart := tree.isDirectory_start path.rooted
    rw [hnil, follow, Except.ok.injEq] at hlocate
    rw [hlocate, hnot] at hstart
    contradiction
  · rw [List.concat_eq_append] at hnames
    refine ⟨front, last, hnames, ?_⟩
    rintro rfl
    rw [hnames] at hlocate
    obtain ⟨between, -, hlast⟩ := follow_append_eq_ok_iff.mp hlocate
    obtain ⟨hbetween, hlast⟩ := follow_cons_eq_ok_iff.mp hlast
    rw [if_pos (beq_self_eq_true _), follow, Except.ok.injEq] at hlast
    have hup := isDirectory_above (List.dropLast_prefix between) hbetween
    rw [hlast, hnot] at hup
    contradiction

theorem Sound.leadsToFile_of_readText
    (hsound : tree.Sound) {text : List Char} (hread : tree.readText path = .ok text) :
    tree.LeadsToFile path := by
  obtain ⟨place, hlocate, hfile⟩ := exists_file?_of_readText hread
  have hclean := (locate_eq_ok_iff.mp hlocate).1
  have hhome : ['.', '.'] ∉ tree.home := fun hmem => (hsound.home _ hmem).2.1 rfl
  refine ⟨?_, hsound.names_of_file hlocate hfile, ?_⟩
  · rwa [← eq_resolve_of_locate hhome hlocate]
  · simpa [Path.hasNull] using hclean

end Tree

end Stencil.Files
