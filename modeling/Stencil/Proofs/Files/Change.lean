import Stencil.Proofs.Data.Table
import Stencil.Proofs.Files.Tree

/-!
# Changing a tree

To make a directory or to write a file adds something at one place and takes nothing away.  What is
a directory stays one, so that a path that could be followed still can, and leads to the same place.
No file becomes a directory, and the files at other places stay as they are.
-/

namespace Stencil.Files

open Stencil.Text

namespace Tree

variable {tree before after later : Tree} {here place added there : Place} {entry : Entry}
  {names : List (List Char)} {path other : Path} {text : List Char}

/-! ## What a located place lies in -/

theorem isDirectory_dropLast_of_follow
    (hhere : tree.isDirectory here.dropLast = true) (hfollow : tree.follow here names = .ok place) :
    tree.isDirectory place.dropLast = true := by
  induction names generalizing here with
  | nil =>
      rw [follow, Except.ok.injEq] at hfollow
      rwa [← hfollow]
  | cons name names ih =>
      obtain ⟨hdirectory, hfollow⟩ := follow_cons_eq_ok_iff.mp hfollow
      refine ih ?_ hfollow
      split
      · exact isDirectory_above (List.dropLast_prefix _) hhere
      · rwa [List.dropLast_concat]

theorem isDirectory_dropLast_of_locate (hlocate : tree.locate path = .ok place) :
    tree.isDirectory place.dropLast = true :=
  isDirectory_dropLast_of_follow
    (isDirectory_above (List.dropLast_prefix _) (isDirectory_start tree path.rooted))
    (locate_eq_ok_iff.mp hlocate).2

/-! ## Adding an entry -/

def put (tree : Tree) (added : Place) (entry : Entry) : Tree :=
  { tree with entries := Table.put tree.entries added entry }

theorem entry?_put_self (tree : Tree) (added : Place) (entry : Entry) :
    Tree.entry? (tree.put added entry) added = some entry :=
  Table.get?_put_self tree.entries added entry

theorem entry?_put_of_ne (tree : Tree) (entry : Entry) (hne : there ≠ added) :
    Tree.entry? (tree.put added entry) there = tree.entry? there :=
  Table.get?_put_of_ne tree.entries entry hne

theorem file?_put_self (tree : Tree) (added : Place) (text : Option (List Char)) :
    (tree.put added (.file text)).file? added = some text := by
  rw [file?, entry?_put_self]

theorem file?_put_of_ne (tree : Tree) (entry : Entry) (hne : there ≠ added) :
    (tree.put added entry).file? there = tree.file? there := by
  rw [file?, entry?_put_of_ne tree entry hne, file?]

theorem isDirectory_iff_keys :
    tree.isDirectory there = true ↔
      tree.entry? there = some .directory ∨ there <+: tree.home ∨
        ∃ found ∈ Table.keys tree.entries, there <+: found ∧ there ≠ found := by
  simp only [isDirectory_iff, Table.keys, List.mem_map, exists_exists_and_eq_and]

theorem isDirectory_above_of_ne
    (hlies : tree.isDirectory added.dropLast = true) (habove : there <+: added)
    (hne : there ≠ added) : tree.isDirectory there = true := by
  rcases added.eq_nil_or_concat with rfl | ⟨front, last, rfl⟩
  · exact absurd (List.prefix_nil.mp habove) hne
  · rw [List.concat_eq_append] at habove hne hlies
    rw [List.dropLast_concat] at hlies
    rcases List.prefix_concat_iff.mp habove with hsame | hfront
    · contradiction
    · exact isDirectory_above hfront hlies

theorem isDirectory_put_of_isDirectory
    (hadded : tree.isDirectory added = false) (hthere : tree.isDirectory there = true) :
    (tree.put added entry).isDirectory there = true := by
  have hne : there ≠ added := by
    rintro rfl
    rw [hadded] at hthere
    contradiction
  rw [isDirectory_iff_keys, entry?_put_of_ne tree entry hne]
  rcases isDirectory_iff_keys.mp hthere with hentry | hhome | ⟨found, hfound, hbelow⟩
  · exact .inl hentry
  · exact .inr (.inl hhome)
  · exact .inr (.inr ⟨found, Table.mem_keys_put.mpr (.inr hfound), hbelow⟩)

/-- A new entry in a directory makes no other place a directory. -/
theorem isDirectory_of_isDirectory_put
    (hlies : tree.isDirectory added.dropLast = true)
    (hthere : (tree.put added entry).isDirectory there = true) :
    tree.isDirectory there = true ∨ there = added ∧ entry = .directory := by
  rcases isDirectory_iff_keys.mp hthere with hentry | hhome | ⟨found, hfound, habove, hne⟩
  · by_cases hsame : there = added
    · rw [hsame, entry?_put_self, Option.some.injEq] at hentry
      exact .inr ⟨hsame, hentry⟩
    · rw [entry?_put_of_ne tree entry hsame] at hentry
      exact .inl (isDirectory_iff_keys.mpr (.inl hentry))
  · exact .inl (isDirectory_iff_keys.mpr (.inr (.inl hhome)))
  · rcases Table.mem_keys_put.mp hfound with rfl | hfound
    · exact .inl (isDirectory_above_of_ne hlies habove hne)
    · exact .inl (isDirectory_iff_keys.mpr (.inr (.inr ⟨found, hfound, habove, hne⟩)))

/-! ## What a change keeps -/

theorem follow_of_isDirectory
    (hdirectories : ∀ there, before.isDirectory there = true → after.isDirectory there = true)
    (hfollow : before.follow here names = .ok there) : after.follow here names = .ok there := by
  induction names generalizing here with
  | nil => exact hfollow
  | cons name names ih =>
      obtain ⟨hhere, hfollow⟩ := follow_cons_eq_ok_iff.mp hfollow
      exact follow_cons_eq_ok_iff.mpr ⟨hdirectories here hhere, ih hfollow⟩

/-- Where directories stay, a path leads where it led. -/
theorem locate_of_isDirectory
    (hhome : after.home = before.home)
    (hdirectories : ∀ there, before.isDirectory there = true → after.isDirectory there = true)
    (hlocate : before.locate path = .ok there) : after.locate path = .ok there := by
  obtain ⟨hclean, hfollow⟩ := locate_eq_ok_iff.mp hlocate
  rw [locate_eq_ok_iff, hhome]
  exact ⟨hclean, follow_of_isDirectory hdirectories hfollow⟩

/-- Where directories and files stay, what is there stays. -/
theorem exists?_of_isDirectory
    (hhome : after.home = before.home)
    (hdirectories : ∀ there, before.isDirectory there = true → after.isDirectory there = true)
    (hfiles : ∀ there, before.isDirectory there = false → (before.file? there).isSome →
      (after.file? there).isSome)
    (hexists : before.exists? path = true) : after.exists? path = true := by
  rw [exists?] at hexists ⊢
  cases hlocate : before.locate path with
  | error problem =>
      rw [hlocate] at hexists
      contradiction
  | ok there =>
      rw [hlocate] at hexists
      rw [locate_of_isDirectory hhome hdirectories hlocate]
      dsimp only at hexists ⊢
      rw [Bool.or_eq_true] at hexists ⊢
      cases hthere : before.isDirectory there with
      | true => exact .inr (hdirectories there hthere)
      | false =>
          rw [hthere] at hexists
          exact .inl (hfiles there hthere (hexists.resolve_right Bool.false_ne_true))

/-- What a change that writes no file at a place keeps. -/
structure Keeps (place : Place) (before after : Tree) : Prop where
  home : after.home = before.home
  directories : ∀ there, before.isDirectory there = true → after.isDirectory there = true
  file : ∀ text, before.file? place = some text → before.isDirectory place = false →
    after.file? place = some text ∧ after.isDirectory place = false

namespace Keeps

theorem refl (place : Place) (tree : Tree) : Keeps place tree tree :=
  ⟨rfl, fun _ hthere => hthere, fun _ hfile hplace => ⟨hfile, hplace⟩⟩

theorem trans {first second third : Tree} (hfirst : Keeps place first second)
    (hsecond : Keeps place second third) : Keeps place first third := by
  refine ⟨hsecond.home.trans hfirst.home, ?_, ?_⟩
  · exact fun there hthere => hsecond.directories there (hfirst.directories there hthere)
  · intro text hfile hplace
    obtain ⟨hfile, hplace⟩ := hfirst.file text hfile hplace
    exact hsecond.file text hfile hplace

theorem locate (hkeeps : Keeps place before after) (hlocate : before.locate path = .ok there) :
    after.locate path = .ok there :=
  locate_of_isDirectory hkeeps.home hkeeps.directories hlocate

theorem resolve (hkeeps : Keeps place before after) (path : Path) :
    after.resolve path = before.resolve path := by
  rw [Tree.resolve, Tree.resolve, hkeeps.home]

end Keeps

theorem keeps_put
    (hlies : tree.isDirectory added.dropLast = true) (hadded : tree.isDirectory added = false)
    (hother : (tree.file? place).isSome → place ≠ added) :
    Keeps place tree (tree.put added entry) := by
  refine ⟨rfl, fun there => isDirectory_put_of_isDirectory hadded, ?_⟩
  intro text hfile hplace
  have hne : place ≠ added := hother (by rw [hfile]; rfl)
  refine ⟨by rw [file?_put_of_ne tree entry hne, hfile], ?_⟩
  rw [Bool.eq_false_iff]
  intro hdirectory
  rcases isDirectory_of_isDirectory_put hlies hdirectory with hbefore | ⟨hsame, -⟩
  · rw [hplace] at hbefore
    contradiction
  · contradiction

/-! ## Making directories -/

theorem keeps_makeLast {rooted : Bool}
    (hmade : makeDirectoriesFrom.makeLast rooted names tree = .ok later) (place : Place) :
    Keeps place tree later := by
  obtain ⟨added, hlocate, hmade⟩ := bind_eq_ok_iff.mp hmade
  split at hmade
  next =>
    cases hmade
    exact .refl place tree
  next hadded =>
    split at hmade
    next => contradiction
    next hnone =>
      cases hmade
      refine keeps_put (isDirectory_dropLast_of_locate hlocate) (by simpa using hadded) ?_
      rintro hfile rfl
      exact hnone hfile

theorem keeps_makeDirectoriesFrom {rooted : Bool}
    (hmade : tree.makeDirectoriesFrom rooted names = .ok later) (place : Place) :
    Keeps place tree later := by
  fun_induction makeDirectoriesFrom tree rooted names generalizing later with
  | case1 =>
      cases hmade
      exact .refl place tree
  | case2 first rest hmissing ih =>
      obtain ⟨between, hbetween, hmade⟩ := bind_eq_ok_iff.mp hmade
      exact (ih hbetween).trans (keeps_makeLast hmade place)
  | case3 => contradiction
  | case4 first rest found hfound => exact keeps_makeLast hmade place

theorem keeps_makeDirectories
    (hmade : tree.makeDirectories path = .ok later) (place : Place) : Keeps place tree later :=
  keeps_makeDirectoriesFrom hmade place

theorem exists?_of_makeDirectories
    (hmade : tree.makeDirectories path = .ok later) (hexists : tree.exists? other = true) :
    later.exists? other = true := by
  have hkeeps (there : Place) : Keeps there tree later := keeps_makeDirectories hmade there
  refine exists?_of_isDirectory (hkeeps []).home (hkeeps []).directories ?_ hexists
  intro there hthere hfile
  obtain ⟨text, hfile⟩ := Option.isSome_iff_exists.mp hfile
  rw [((hkeeps there).file text hfile hthere).1]
  rfl

theorem file?_of_makeLast {rooted : Bool} {found : Option (List Char)}
    (hmade : makeDirectoriesFrom.makeLast rooted names tree = .ok later)
    (hfound : later.file? place = some found) : tree.file? place = some found := by
  obtain ⟨added, -, hmade⟩ := bind_eq_ok_iff.mp hmade
  split at hmade
  next =>
    cases hmade
    exact hfound
  next =>
    split at hmade
    next => contradiction
    next =>
      cases hmade
      have hput : (tree.put added .directory).file? place = some found := hfound
      by_cases hplace : place = added
      · rw [hplace, file?, entry?_put_self] at hput
        contradiction
      · rwa [file?_put_of_ne tree .directory hplace] at hput

/-- A file that is there when directories were made has been there before. -/
theorem file?_of_makeDirectories {found : Option (List Char)}
    (hmade : tree.makeDirectories path = .ok later) (hfound : later.file? place = some found) :
    tree.file? place = some found := by
  rw [makeDirectories] at hmade
  generalize path.names = names, path.rooted = rooted at hmade
  fun_induction makeDirectoriesFrom tree rooted names generalizing later with
  | case1 =>
      cases hmade
      exact hfound
  | case2 first rest hmissing ih =>
      obtain ⟨between, hbetween, hmade⟩ := bind_eq_ok_iff.mp hmade
      exact ih (file?_of_makeLast hmade hfound) hbetween
  | case3 => contradiction
  | case4 first rest _ hlocate => exact file?_of_makeLast hmade hfound

/-! ## Texts of files -/

/-- A path leads to a file with a text. -/
structure HasText (tree : Tree) (path : Path) (place : Place) (text : List Char) : Prop where
  locate : tree.locate path = .ok place
  file : tree.file? place = some (some text)
  notDirectory : tree.isDirectory place = false

theorem HasText.keep (htext : HasText before path place text)
    (hkeeps : Keeps place before after) : HasText after path place text := by
  obtain ⟨hfile, hplace⟩ := hkeeps.file _ htext.file htext.notDirectory
  exact ⟨hkeeps.locate htext.locate, hfile, hplace⟩

theorem HasText.readText (htext : HasText tree path place text) :
    tree.readText path = .ok (unifyNewlines text) := by
  have hread : tree.readExact path = .ok text := by
    refine bind_eq_ok_iff.mpr ⟨place, htext.locate, ?_⟩
    rw [htext.file]
  rw [Tree.readText, hread]
  rfl

theorem HasText.exists?_eq_true (htext : HasText tree path place text) :
    tree.exists? path = true := by
  rw [exists?, htext.locate]
  simp [htext.file]

/-- Every path to a place leads to the same file. -/
theorem HasText.of_locate (htext : HasText tree path place text)
    (hother : tree.locate other = .ok place) : HasText tree other place text :=
  ⟨hother, htext.file, htext.notDirectory⟩

theorem writeText_eq_ok_iff :
    tree.writeText path text = .ok later ↔
      ∃ place, tree.locate path = .ok place ∧ tree.isDirectory place = false ∧
        tree.put place (.file (some text)) = later := by
  rw [writeText, bind_eq_ok_iff]
  refine exists_congr fun place => and_congr_right fun _ => ?_
  cases tree.isDirectory place with
  | true => simp
  | false => simp [putFile, put]

theorem HasText.exists_writeText (htext : HasText tree path place text) (new : List Char) :
    ∃ later, tree.writeText path new = .ok later :=
  ⟨_, writeText_eq_ok_iff.mpr ⟨place, htext.locate, htext.notDirectory, rfl⟩⟩

theorem file?_of_writeText {found : Option (List Char)}
    (hwrite : tree.writeText path text = .ok later) (hfound : later.file? place = some found) :
    tree.file? place = some found ∨ tree.locate path = .ok place ∧ found = some text := by
  obtain ⟨added, hlocate, -, rfl⟩ := writeText_eq_ok_iff.mp hwrite
  by_cases hplace : place = added
  · rw [hplace, file?_put_self] at hfound
    exact .inr ⟨hplace ▸ hlocate, (Option.some.inj hfound).symm⟩
  · rw [file?_put_of_ne tree _ hplace] at hfound
    exact .inl hfound

theorem exists?_of_writeText
    (hwrite : tree.writeText path text = .ok later) (hexists : tree.exists? other = true) :
    later.exists? other = true := by
  obtain ⟨added, -, hadded, rfl⟩ := writeText_eq_ok_iff.mp hwrite
  have hhome : (tree.put added (.file (some text))).home = tree.home := rfl
  refine exists?_of_isDirectory hhome (fun _ => isDirectory_put_of_isDirectory hadded) ?_ hexists
  intro there _ hfile
  by_cases hplace : there = added
  · rw [hplace, file?_put_self]
    rfl
  · rwa [file?_put_of_ne tree _ hplace]

theorem home_of_writeText (hwrite : tree.writeText path text = .ok later) :
    later.home = tree.home := by
  obtain ⟨place, -, -, rfl⟩ := writeText_eq_ok_iff.mp hwrite
  rfl

/-- What was written is there under every path that leads to its place. -/
theorem hasText_of_writeText
    (hwrite : tree.writeText path text = .ok later) (hlocate : tree.locate path = .ok place)
    (hother : tree.locate other = .ok place) : HasText later other place text := by
  obtain ⟨added, hadded, hplace, rfl⟩ := writeText_eq_ok_iff.mp hwrite
  obtain rfl : added = place := Except.ok.inj (hadded.symm.trans hlocate)
  refine ⟨?_, file?_put_self tree added (some text), ?_⟩
  · have hhome : (tree.put added (.file (some text))).home = tree.home := rfl
    exact locate_of_isDirectory hhome (fun _ => isDirectory_put_of_isDirectory hplace) hother
  · rw [Bool.eq_false_iff]
    intro hdirectory
    have hlies := isDirectory_dropLast_of_locate hlocate
    rcases isDirectory_of_isDirectory_put hlies hdirectory with hbefore | ⟨-, hentry⟩
    · rw [hplace] at hbefore
      contradiction
    · contradiction

theorem keeps_writeText
    (hwrite : tree.writeText path text = .ok later) (hother : tree.locate path ≠ .ok place) :
    Keeps place tree later := by
  obtain ⟨added, hlocate, hadded, rfl⟩ := writeText_eq_ok_iff.mp hwrite
  refine keeps_put (isDirectory_dropLast_of_locate hlocate) hadded ?_
  rintro - rfl
  exact hother hlocate

end Tree

end Stencil.Files
