import Stencil.Proofs.Sheet.Bundle

/-!
# Sheets that share a bundle

The place of a bundle is made of a directory next to the sheet, of the sheet's name up to the first
point and of the digest of a layout.  Sheets that agree in all of them share a bundle, and the one
that comes later finds the bundle of the other one or writes over it.  Where no two sheets share
one, every bundle goes on holding its own sheet.
-/

namespace Stencil.Sheet.Bundler

open Stencil.Text Stencil.Files

variable {state later : Workplace × List Warning} {place : Place} {start : Workplace}
  {run todo : List Preparation} {file other : Path} {layout layout' : List Char}
  {preparation : Preparation}

/-! ## The place of a bundle -/

def stem (file : Path) : List Char :=
  file.name.takeWhile (· != '.')

theorem length_hexText (bytes : List UInt8) :
    (Digest.hexText bytes).length = 2 * bytes.length := by
  have hdigits : ∀ n < 256, (hexDigits 2 n).length = 2 := by decide +kernel
  induction bytes with
  | nil => rfl
  | cons byte bytes ih =>
      rw [Digest.hexText, List.flatMap_cons, List.length_append, hdigits _ byte.toNat_lt,
        ← Digest.hexText, ih, List.length_cons]
      omega

theorem length_hexOfText (text : List Char) : (Digest.Md5.hexOfText text).length = 32 := by
  have hdigest (message : List UInt8) : (Digest.Md5.digest message).length = 16 := by
    simp [Digest.Md5.digest, Digest.littleEndian]
  rw [Digest.Md5.hexOfText, length_hexText, hdigest]

theorem bundleName_eq_iff :
    bundleName file layout = bundleName other layout' ↔
      stem file = stem other ∧ Digest.Md5.hexOfText layout = Digest.Md5.hexOfText layout' := by
  rw [bundleName, bundleName, List.append_left_inj]
  constructor
  · intro hnames
    have hlength := (length_hexOfText layout).trans (length_hexOfText layout').symm
    obtain ⟨hfront, hdigest⟩ := List.append_inj' hnames hlength
    exact ⟨List.append_cancel_right hfront, hdigest⟩
  · rintro ⟨hstem, hdigest⟩
    rw [hdigest, ← stem, ← stem, hstem]

theorem bundleName_ne_doubleDot (file : Path) (layout : List Char) :
    bundleName file layout ≠ ['.', '.'] := by
  have hmem : '_' ∈ bundleName file layout := by simp [bundleName]
  intro hname
  rw [hname] at hmem
  contradiction

theorem resolve_bundlePath (tree : Tree) (bundler : Bundler) (file : Path) (layout : List Char) :
    tree.resolve (bundler.bundlePath file layout) =
      tree.resolve (bundler.bundlePath file layout).parent ++ [bundleName file layout] :=
  Tree.resolve_of_names rfl (bundleName_ne_doubleDot file layout) tree

namespace Preparation

def directoryPlace (preparation : Preparation) (workplace : Workplace) : Place :=
  workplace.tree.resolve (preparation.bundlePath workplace.bundler).parent

/-- The two preparations are for one layout, their bundles lie in one directory, and their sheets
have the same name up to the first point. -/
structure SharesBundle (workplace : Workplace) (first second : Preparation) : Prop where
  directory : first.directoryPlace workplace = second.directoryPlace workplace
  stem : stem first.file = stem second.file
  layout : first.layout = second.layout

theorem bundlePlace_eq_iff {workplace : Workplace} {first second : Preparation}
    (hdigest : Digest.Md5.hexOfText first.layout = Digest.Md5.hexOfText second.layout →
      first.layout = second.layout) :
    first.bundlePlace workplace = second.bundlePlace workplace ↔
      SharesBundle workplace first second := by
  rw [bundlePlace, bundlePlace, bundlePath, bundlePath, resolve_bundlePath, resolve_bundlePath]
  constructor
  · intro hplaces
    obtain ⟨hdirectory, hnames⟩ := List.append_inj' hplaces (by simp)
    obtain ⟨hstem, hlayout⟩ := bundleName_eq_iff.mp (List.cons.inj hnames).1
    exact ⟨hdirectory, hstem, hdigest hlayout⟩
  · rintro ⟨hdirectory, hstem, hlayout⟩
    have hname := bundleName_eq_iff.mpr ⟨hstem, congrArg Digest.Md5.hexOfText hlayout⟩
    rw [directoryPlace, directoryPlace, bundlePath, bundlePath] at hdirectory
    rw [hdirectory, hname]

end Preparation

/-! ## What one preparation leaves -/

def flatText (tree : Tree) (file : Path) : Except Failure (List Char) :=
  (flatten tree file bundleLevel).outcome.1

theorem Leaves.home {bundler : Bundler} {target : Path} {tree after : Tree}
    (hleaves : Leaves bundler target tree after) : after.home = tree.home := by
  cases hleaves with
  | unchanged => rfl
  | directory hmade => exact (Tree.keeps_makeDirectories hmade []).home
  | bundle hmade _ hwrite =>
      exact (Tree.home_of_writeText hwrite).trans (Tree.keeps_makeDirectories hmade []).home

theorem Leaves.exists? {bundler : Bundler} {target path : Path} {tree after : Tree}
    (hleaves : Leaves bundler target tree after) (hexists : tree.exists? path = true) :
    after.exists? path = true := by
  cases hleaves with
  | unchanged => exact hexists
  | directory hmade => exact Tree.exists?_of_makeDirectories hmade hexists
  | bundle hmade _ hwrite =>
      exact Tree.exists?_of_writeText hwrite (Tree.exists?_of_makeDirectories hmade hexists)

/-- Whether it was found or written, there is something where the link leads. -/
theorem exists?_bundlePath_of_perform {tag : List Char}
    (hperform : runOn state preparation.perform = (.ok tag, later)) :
    later.1.tree.exists? (preparation.bundlePath state.1.bundler) = true := by
  obtain ⟨given, _, hbuild, hlink⟩ := runOn_bind_eq_ok_iff.mp hperform
  cases hlink
  obtain ⟨-, made, hmade, ⟨hfound, rfl⟩ | ⟨text, between, -, hwrite, -⟩⟩ :=
    found_or_written_of_build hbuild
  · exact (Bool.and_eq_true_iff.mp hfound).2
  · obtain ⟨place, hlocate, -⟩ := Tree.writeText_eq_ok_iff.mp hwrite
    exact (Tree.hasText_of_writeText hwrite hlocate hlocate).exists?_eq_true

/-- A preparation leaves the tree as it was, or with the directory of the bundle, or with the bundle
of the sheet in it. -/
theorem tree_perform (hexists : state.1.tree.exists? preparation.file = true) :
    let target := preparation.bundlePath state.1.bundler
    let after := (runOn state preparation.perform).2.1.tree
    after = state.1.tree ∨
      ∃ made, state.1.tree.makeDirectories target.parent = .ok made ∧
        (after = made ∨
          ∃ flat, flatText made preparation.file = .ok flat ∧
            made.writeText target (Sheet.minify flat) = .ok after) := by
  rw [Preparation.perform, prepare, runOn_bind_pure, runOn_build, Preparation.bundlePath]
  generalize state.1.bundler.bundlePath preparation.file preparation.layout = target
  dsimp only
  cases hmade : state.1.tree.makeDirectories target.parent with
  | error problem => exact .inl rfl
  | ok made =>
      refine .inr ⟨made, rfl, ?_⟩
      dsimp only
      split
      next => exact .inl rfl
      next =>
        have htree := (buildText_leaves ({ state.1 with tree := made }, state.2) preparation.file
          target).1
        generalize hbuilt : runOn ({ state.1 with tree := made }, state.2)
          (buildText preparation.file target) = outcome at htree ⊢
        obtain ⟨failure | text, between⟩ := outcome
        · exact .inl htree
        · obtain ⟨flat, added, hflat, rfl, -, -⟩ := exists_flat_of_buildText
            (Tree.exists?_of_makeDirectories hmade hexists) hbuilt
          dsimp only at htree ⊢
          rw [htree]
          cases hwrite : made.writeText target (Sheet.minify flat) with
          | error problem => exact .inl htree
          | ok after => exact .inr ⟨flat, congrArg Prod.fst hflat, hwrite⟩

/-- A file that is there after a preparation has been there before, or it is the bundle of the
sheet. -/
theorem file?_of_perform {found : Option (List Char)}
    (hexists : state.1.tree.exists? preparation.file = true)
    (hfound : (runOn state preparation.perform).2.1.tree.file? place = some found) :
    state.1.tree.file? place = some found ∨
      ∃ made flat,
        state.1.tree.makeDirectories (preparation.bundlePath state.1.bundler).parent = .ok made ∧
          made.locate (preparation.bundlePath state.1.bundler) = .ok place ∧
          flatText made preparation.file = .ok flat ∧ found = some (Sheet.minify flat) := by
  rcases tree_perform hexists with hsame | ⟨made, hmade, hsame | ⟨flat, hflat, hwrite⟩⟩
  · rw [hsame] at hfound
    exact .inl hfound
  · rw [hsame] at hfound
    exact .inl (Tree.file?_of_makeDirectories hmade hfound)
  · rcases Tree.file?_of_writeText hwrite hfound with hbefore | ⟨hlocate, htext⟩
    · exact .inl (Tree.file?_of_makeDirectories hmade hbefore)
    · exact .inr ⟨made, flat, hmade, hlocate, hflat, htext⟩

/-! ## Runs in which no two sheets share a bundle -/

/-- The sheets of a run are there and none of their bundles is, and two of them only share a bundle
if they have the same text.  The digests tell the layouts apart. -/
structure SideBySide (start : Workplace) (run : List Preparation) : Prop where
  home : ['.', '.'] ∉ start.tree.home
  sheets : ∀ preparation ∈ run, start.tree.exists? preparation.file = true
  unbuilt : ∀ preparation ∈ run, start.tree.file? (preparation.bundlePlace start) = none
  apart : ∀ first ∈ run, ∀ second ∈ run, Preparation.SharesBundle start first second →
    flatText start.tree first.file = flatText start.tree second.file
  digests : ∀ first ∈ run, ∀ second ∈ run,
    Digest.Md5.hexOfText first.layout = Digest.Md5.hexOfText second.layout →
      first.layout = second.layout

/-- At each call of a run the sheet has the text that it has at the start. -/
def Steady (start : Tree) : Workplace × List Warning → List Preparation → Prop
  | _, [] => True
  | state, first :: rest =>
    (∀ made ∈ (state.1.tree.makeDirectories
          (first.bundlePath state.1.bundler).parent).toOption,
        flatText made first.file = flatText start first.file) ∧
      Steady start (runOn state first.perform).2 rest

instance decidableSteady (start : Tree) :
    ∀ (state : Workplace × List Warning) (run : List Preparation),
      Decidable (Steady start state run)
  | _, [] => .isTrue trivial
  | state, first :: rest =>
    have := decidableSteady start (runOn state first.perform).2 rest
    inferInstanceAs (Decidable (_ ∧ _))

/-- Every bundle of the run that was built holds its own sheet. -/
structure Holds (start : Workplace) (run : List Preparation) (workplace : Workplace) : Prop where
  home : workplace.tree.home = start.tree.home
  continues : Continues start.bundler workplace.bundler
  sheets : ∀ preparation ∈ run, workplace.tree.exists? preparation.file = true
  bundles : ∀ preparation ∈ run, ∀ found,
    workplace.tree.file? (preparation.bundlePlace start) = some found →
      ∃ flat, flatText start.tree preparation.file = .ok flat ∧ found = some (Sheet.minify flat)

theorem SideBySide.holds (hside : SideBySide start run) : Holds start run start where
  home := rfl
  continues := .refl _
  sheets := hside.sheets
  bundles := by
    intro preparation hmem found hfound
    rw [hside.unbuilt preparation hmem] at hfound
    contradiction

theorem Holds.perform
    (hside : SideBySide start run) (hholds : Holds start run state.1) (hmem : preparation ∈ run)
    (hsteady : ∀ made ∈ (state.1.tree.makeDirectories
        (preparation.bundlePath state.1.bundler).parent).toOption,
      flatText made preparation.file = flatText start.tree preparation.file) :
    Holds start run (runOn state preparation.perform).2.1 := by
  obtain ⟨hleaves, hcontinues⟩ := perform_leaves state preparation
  refine ⟨hleaves.home.trans hholds.home, hholds.continues.trans hcontinues, ?_, ?_⟩
  · exact fun other hother => hleaves.exists? (hholds.sheets other hother)
  · intro other hother found hfound
    rcases file?_of_perform (hholds.sheets preparation hmem) hfound with
      hbefore | ⟨made, flat, hmade, hlocate, hflat, rfl⟩
    · exact hholds.bundles other hother found hbefore
    · -- The bundle was written, so the two share it.
      have hmadeHome : made.home = start.tree.home :=
        (Tree.keeps_makeDirectories hmade []).home.trans hholds.home
      have hplace := Tree.eq_resolve_of_locate (hmadeHome ▸ hside.home) hlocate
      have hsame : preparation.bundlePlace start = other.bundlePlace start := by
        rw [hplace, Preparation.bundlePlace, Preparation.bundlePath, Preparation.bundlePath,
          hholds.continues.bundlePath, Tree.resolve, Tree.resolve, hmadeHome]
      have hshares := (Preparation.bundlePlace_eq_iff
        (hside.digests preparation hmem other hother)).mp hsame
      refine ⟨flat, ?_, rfl⟩
      rw [← hside.apart preparation hmem other hother hshares, ← hflat]
      exact (hsteady made (toOption_eq_some_iff.mpr hmade)).symm

theorem Holds.afterAll
    (hside : SideBySide start run) (hholds : Holds start run state.1) (htodo : todo ⊆ run)
    (hsteady : Steady start.tree state todo) : Holds start run (afterAll state todo).1 := by
  induction todo generalizing state with
  | nil => exact hholds
  | cons first rest ih =>
      obtain ⟨hfirst, hrest⟩ := hsteady
      obtain ⟨hmem, hlater⟩ := List.cons_subset.mp htodo
      exact ih (hholds.perform hside hmem hfirst) hlater hrest

/-- What lies in the place of a bundle is its sheet, unless it is a directory. -/
theorem Holds.readExact
    {workplace : Workplace} (hholds : Holds start run workplace)
    (hhome : ['.', '.'] ∉ start.tree.home) (hmem : preparation ∈ run)
    (hthere : workplace.tree.exists? (preparation.bundlePath start.bundler) = true)
    (hfile : workplace.tree.isDirectory (preparation.bundlePlace start) = false) :
    ∃ flat, flatText start.tree preparation.file = .ok flat ∧
      workplace.tree.readExact (preparation.bundlePath start.bundler) =
        .ok (Sheet.minify flat) := by
  rw [Tree.exists?] at hthere
  cases hlocate : workplace.tree.locate (preparation.bundlePath start.bundler) with
  | error problem =>
      rw [hlocate] at hthere
      contradiction
  | ok place =>
      obtain rfl : place = preparation.bundlePlace start := by
        rw [Tree.eq_resolve_of_locate (hholds.home ▸ hhome) hlocate, Preparation.bundlePlace,
          Tree.resolve, Tree.resolve, hholds.home]
      rw [hlocate] at hthere
      dsimp only at hthere
      rw [hfile, Bool.or_false] at hthere
      obtain ⟨found, hfound⟩ := Option.isSome_iff_exists.mp hthere
      obtain ⟨flat, hflat, rfl⟩ := hholds.bundles preparation hmem found hfound
      refine ⟨flat, hflat, bind_eq_ok_iff.mpr ⟨_, hlocate, ?_⟩⟩
      rw [hfound]

/-! ## After a run -/

theorem exists?_afterAll {path : Path} (hexists : state.1.tree.exists? path = true)
    (run : List Preparation) : (afterAll state run).1.tree.exists? path = true := by
  induction run generalizing state with
  | nil => exact hexists
  | cons first rest ih => exact ih ((perform_leaves state first).1.exists? hexists)

theorem continues_afterAll (state : Workplace × List Warning) (run : List Preparation) :
    Continues state.1.bundler (afterAll state run).1.bundler := by
  induction run generalizing state with
  | nil => exact .refl _
  | cons first rest ih => exact (perform_leaves state first).2.trans (ih _)

theorem afterAll_append_cons
    (state : Workplace × List Warning) (front : List Preparation) (called : Preparation)
    (rest : List Preparation) :
    afterAll state (front ++ called :: rest) =
      afterAll (runOn (afterAll state front) called.perform).2 rest :=
  List.foldl_append

/-- In a run in which no two sheets share a bundle, each call that returned has a link to a bundle
that still holds its sheet at the end, unless a directory lies in the place of the bundle. -/
theorem readExact_afterAll_of_perform
    {front rest : List Preparation} {called : Preparation} {tag : List Char}
    (hside : SideBySide state.1 (front ++ called :: rest))
    (hsteady : Steady state.1.tree state (front ++ called :: rest))
    (hcalled : runOn (afterAll state front) called.perform = (.ok tag, later))
    (hfile : (afterAll state (front ++ called :: rest)).1.tree.isDirectory
      (called.bundlePlace state.1) = false) :
    tag = link (state.1.bundler.reference called.file called.layout) called.href
        called.attributes called.after ∧
      ∃ flat, flatText state.1.tree called.file = .ok flat ∧
        (afterAll state (front ++ called :: rest)).1.tree.readExact
          (called.bundlePath state.1.bundler) = .ok (Sheet.minify flat) := by
  have hcontinues := continues_afterAll state front
  constructor
  · rw [eq_link_of_perform hcalled, reference, hcontinues.directoryName, reference]
  have hholds := hside.holds.afterAll hside (List.Subset.refl _) hsteady
  have hmem : called ∈ front ++ called :: rest := List.mem_append_right _ List.mem_cons_self
  refine hholds.readExact hside.home hmem ?_ hfile
  have hlater := exists?_bundlePath_of_perform hcalled
  rw [Preparation.bundlePath, hcontinues.bundlePath] at hlater
  rw [afterAll_append_cons, hcalled]
  exact exists?_afterAll hlater rest

/-- One sheet is linked to twice, and another one of its directory for another layout. -/
theorem readExact_afterAll_of_perform_again :
    let tree : Tree :=
      ⟨[([['w'], "page.css".toList], .file (some ".a \x7b x: 1 \x7d".toList)),
        ([['w'], "page.min.css".toList], .file (some ".b\x7bx:2\x7d".toList))], [['w']]⟩
    let page : Preparation := ⟨⟨false, ["page.css".toList]⟩, [], [], [], []⟩
    let small : Preparation := ⟨⟨false, ["page.min.css".toList]⟩, [], [], [], ['m']⟩
    let state : Workplace × List Warning := (⟨tree, fresh true "cache".toList⟩, [])
    let later := (runOn (afterAll state [page]) small.perform).2
    let final := afterAll state ([page] ++ small :: [page])
    let tag := "<link href=\"\">".toList
    SideBySide state.1 ([page] ++ small :: [page]) ∧
      Steady tree state ([page] ++ small :: [page]) ∧
      runOn (afterAll state [page]) small.perform = (.ok tag, later) ∧
      final.1.tree.isDirectory (small.bundlePlace state.1) = false ∧
      tag = link (state.1.bundler.reference small.file small.layout) small.href
        small.attributes small.after ∧
      ∃ flat, flatText tree small.file = .ok flat ∧
        final.1.tree.readExact (small.bundlePath state.1.bundler) = .ok (Sheet.minify flat) := by
  intro tree page small state later final tag
  have hside : SideBySide state.1 ([page] ++ small :: [page]) :=
    { home := by decide
      sheets := by decide +kernel
      unbuilt := by decide +kernel
      apart := by
        have hfiles : ∀ first ∈ [page] ++ small :: [page], ∀ second ∈ [page] ++ small :: [page],
            first.layout = second.layout → first.file = second.file := by decide +kernel
        intro first hfirst second hsecond hshares
        rw [hfiles first hfirst second hsecond hshares.layout]
      digests := by decide +kernel }
  have hsteady : Steady tree state ([page] ++ small :: [page]) := by decide +kernel
  have hcalled : runOn (afterAll state [page]) small.perform = (.ok tag, later) :=
    Prod.ext (toOption_eq_some_iff.mp (by decide +kernel)) rfl
  have hfile : final.1.tree.isDirectory (small.bundlePlace state.1) = false := by decide +kernel
  exact ⟨hside, hsteady, hcalled, hfile,
    readExact_afterAll_of_perform hside hsteady hcalled hfile⟩

/-- Two sheets of one directory with the same name up to the first point get the same link.  Without
caching the later one is written over the bundle of the other one, and with caching it is not built
at all. -/
theorem readExact_afterAll_of_shared :
    let first := ".a\x7bx:1\x7d".toList
    let second := ".b\x7bx:2\x7d".toList
    let tree : Tree :=
      ⟨[([['w'], "page.css".toList], .file (some first)),
        ([['w'], "page.min.css".toList], .file (some second))], [['w']]⟩
    let page : Preparation := ⟨⟨false, ["page.css".toList]⟩, "<filename>".toList, [], [], []⟩
    let small : Preparation := ⟨⟨false, ["page.min.css".toList]⟩, "<filename>".toList, [], [], []⟩
    let state (useCache : Bool) : Workplace × List Warning :=
      (⟨tree, fresh useCache "cache".toList⟩, [])
    let bundle := page.bundlePath (state false).1.bundler
    let tag := link ((state false).1.bundler.reference page.file []) page.href [] []
    (∀ preparation ∈ [page, small], tree.exists? preparation.file ∧
        tree.file? (preparation.bundlePlace (state false).1) = none) ∧
      (∀ useCache, Steady tree (state useCache) [page, small] ∧
        (runOn (state useCache) page.perform).1.toOption = some tag ∧
        (runOn (afterAll (state useCache) [page]) small.perform).1.toOption = some tag) ∧
      (flatText tree page.file).toOption.map Sheet.minify = some first ∧
      (flatText tree small.file).toOption.map Sheet.minify = some second ∧
      ((afterAll (state false) [page, small]).1.tree.readExact bundle).toOption = some second ∧
      ((afterAll (state true) [page, small]).1.tree.readExact bundle).toOption = some first := by
  decide +kernel

end Stencil.Sheet.Bundler
