import Stencil.Sheet.Bundle
import Stencil.Proofs.Files.Change
import Stencil.Proofs.Sheet.Prune
import Stencil.Proofs.Work

/-!
# What a bundle holds

A bundle that was built since the last pruning is pruned to the classes of the page, whatever else
was prepared meanwhile, unless another sheet was built in its place.  Nothing like that holds of a
bundle that was found and used again, since it may have been pruned for an earlier page.
-/

namespace Stencil.Sheet

open Stencil.Text Stencil.Files

theorem prune_prune (used : List (List Char)) (sheet : List Char) :
    prune used (prune used sheet) = prune used sheet :=
  pruneFrom_larger (List.Subset.refl used) braceFree_nil 0 sheet

namespace Bundler

variable {α : Type} {state later : Workplace × List Warning} {tree made after : Tree}
  {path other target : Path} {place : Place} {css layout : List Char}

/-! ## The way to a bundle -/

def reference (bundler : Bundler) (file : Path) (layout : List Char) : List Char :=
  bundler.directoryName ++ '/' :: bundleName file layout

/-! ## Steps -/

theorem runOn_changeTree
    (state : Workplace × List Warning) (change : Tree → Except Problem Tree) :
    runOn state (changeTree change) =
      match change state.1.tree with
      | .ok tree => (.ok ⟨⟩, ({ state.1 with tree := tree }, state.2))
      | .error problem => (.error (.file problem), state) := by
  rw [changeTree, runOn_bind, runOn_get]
  dsimp only
  cases change state.1.tree <;> rfl

theorem runOn_ofLogged (state : Workplace × List Warning) (computation : Logged Failure α) :
    runOn state (ofLogged computation) =
      (computation.outcome.1, (state.1, state.2 ++ computation.outcome.2)) := rfl

theorem runOn_changeBundler (state : Workplace × List Warning) (change : Bundler → Bundler) :
    runOn state (changeBundler change) =
      (.ok ⟨⟩, ({ state.1 with bundler := change state.1.bundler }, state.2)) := rfl

/-! ## Building -/

/-- A bundler that works the same way and has forgotten none of the bundles it built. -/
structure Continues (before after : Bundler) : Prop where
  useCache : after.useCache = before.useCache
  directoryName : after.directoryName = before.directoryName
  built : before.built ⊆ after.built

theorem Continues.refl (bundler : Bundler) : Continues bundler bundler :=
  ⟨rfl, rfl, List.Subset.refl _⟩

theorem Continues.trans {first second third : Bundler} (hfirst : Continues first second)
    (hsecond : Continues second third) : Continues first third :=
  ⟨hsecond.useCache.trans hfirst.useCache, hsecond.directoryName.trans hfirst.directoryName,
    List.Subset.trans hfirst.built hsecond.built⟩

theorem Continues.bundlePath {before after : Bundler} (hcontinues : Continues before after)
    (file : Path) (layout : List Char) :
    after.bundlePath file layout = before.bundlePath file layout := by
  rw [Bundler.bundlePath, Bundler.bundlePath, hcontinues.directoryName]

/-- To find the text of a bundle changes no files, and the bundle is listed if its sheet exists. -/
theorem runOn_buildText (state : Workplace × List Warning) (file target : Path) :
    runOn state (buildText file target) =
      if state.1.tree.exists? file then
        let (result, added) := (flatten state.1.tree file bundleLevel).outcome
        match result with
        | .ok sheet =>
          (.ok (Sheet.minify sheet),
            ({ state.1 with
                bundler := { state.1.bundler with built := state.1.bundler.built ++ [target] } },
              state.2 ++ added))
        | .error failure => (.error failure, (state.1, state.2 ++ added))
      else (.ok (missingNote file), (state.1, state.2 ++ [.sheetMissing file.text])) := by
  simp only [buildText, runOn_bind, runOn_get]
  split
  next =>
    simp only [runOn_bind, runOn_ofLogged, runOn_changeBundler]
    generalize (flatten state.1.tree file bundleLevel).outcome = outcome
    obtain ⟨failure | sheet, added⟩ := outcome <;> rfl
  next => rfl

theorem exists_flat_of_buildText
    {file : Path} {text : List Char} (hexists : state.1.tree.exists? file = true)
    (htext : runOn state (buildText file target) = (.ok text, later)) :
    ∃ flat added, (flatten state.1.tree file bundleLevel).outcome = (.ok flat, added) ∧
      text = Sheet.minify flat ∧ later.1.tree = state.1.tree ∧ target ∈ later.1.bundler.built := by
  rw [runOn_buildText, if_pos hexists] at htext
  generalize (flatten state.1.tree file bundleLevel).outcome = outcome at htext ⊢
  obtain ⟨failure | flat, added⟩ := outcome
  · cases htext
  · cases htext
    exact ⟨flat, added, rfl, rfl, rfl, List.mem_append_right _ (List.mem_singleton_self target)⟩

theorem buildText_leaves (state : Workplace × List Warning) (file target : Path) :
    (runOn state (buildText file target)).2.1.tree = state.1.tree ∧
      Continues state.1.bundler (runOn state (buildText file target)).2.1.bundler := by
  rw [runOn_buildText]
  split
  next =>
    generalize (flatten state.1.tree file bundleLevel).outcome = outcome
    obtain ⟨failure | sheet, added⟩ := outcome
    · exact ⟨rfl, .refl _⟩
    · exact ⟨rfl, rfl, rfl, List.subset_append_left _ _⟩
  next => exact ⟨rfl, .refl _⟩

/-- What is in the tree when a bundle was to be built: nothing new, the directory of the bundle, or
the bundle in it.  With caching the bundle is only built where there is none. -/
inductive Leaves (bundler : Bundler) (target : Path) (tree : Tree) : Tree → Prop
  | unchanged : Leaves bundler target tree tree
  | directory {made : Tree} (hmade : tree.makeDirectories target.parent = .ok made) :
      Leaves bundler target tree made
  | bundle {made after : Tree} {text : List Char}
      (hmade : tree.makeDirectories target.parent = .ok made)
      (hnew : (bundler.useCache && made.exists? target) = false)
      (hwrite : made.writeText target text = .ok after) : Leaves bundler target tree after

/-- Building a bundle, step by step. -/
theorem runOn_build (state : Workplace × List Warning) (file : Path) (layout : List Char) :
    runOn state (build file layout) =
      let target := state.1.bundler.bundlePath file layout
      let given := state.1.bundler.reference file layout
      match state.1.tree.makeDirectories target.parent with
      | .error problem => (.error (.file problem), state)
      | .ok made =>
        if state.1.bundler.useCache && made.exists? target then
          (.ok given, ({ state.1 with tree := made }, state.2))
        else
          match runOn ({ state.1 with tree := made }, state.2) (buildText file target) with
          | (.error failure, later) => (.error failure, later)
          | (.ok text, later) =>
            match later.1.tree.writeText target text with
            | .error problem => (.error (.file problem), later)
            | .ok after => (.ok given, ({ later.1 with tree := after }, later.2)) := by
  simp only [build, runOn_bind, runOn_get, runOn_changeTree]
  generalize state.1.bundler.bundlePath file layout = target
  cases state.1.tree.makeDirectories target.parent with
  | error problem => rfl
  | ok made =>
      dsimp only
      cases state.1.bundler.useCache && made.exists? target with
      | true => rfl
      | false =>
          simp only [runOn_bind, runOn_changeTree, Bool.not_false, if_true, Bool.false_eq_true,
            if_false]
          generalize runOn ({ state.1 with tree := made }, state.2) (buildText file target) = outcome
          obtain ⟨failure | text, later⟩ := outcome
          · rfl
          · dsimp only
            cases later.1.tree.writeText target text <;> rfl

theorem build_leaves (state : Workplace × List Warning) (file : Path) (layout : List Char) :
    Leaves state.1.bundler (state.1.bundler.bundlePath file layout) state.1.tree
        (runOn state (build file layout)).2.1.tree ∧
      Continues state.1.bundler (runOn state (build file layout)).2.1.bundler := by
  rw [runOn_build]
  dsimp only
  cases hmade : state.1.tree.makeDirectories (state.1.bundler.bundlePath file layout).parent with
  | error problem => exact ⟨.unchanged, .refl _⟩
  | ok made =>
      dsimp only
      split
      next => exact ⟨.directory hmade, .refl _⟩
      next hnew =>
        rw [Bool.not_eq_true] at hnew
        obtain ⟨htree, hcontinues⟩ := buildText_leaves
          ({ state.1 with tree := made }, state.2) file (state.1.bundler.bundlePath file layout)
        generalize runOn ({ state.1 with tree := made }, state.2) (buildText file _) = outcome
          at htree hcontinues ⊢
        obtain ⟨failure | text, later⟩ := outcome
        · exact ⟨htree ▸ .directory hmade, hcontinues⟩
        · dsimp only at htree ⊢
          cases hwrite : later.1.tree.writeText (state.1.bundler.bundlePath file layout) text with
          | error problem => exact ⟨htree ▸ .directory hmade, hcontinues⟩
          | ok after => exact ⟨.bundle hmade hnew (htree ▸ hwrite), hcontinues⟩

/-- A bundle that is given was found, or it was built and written to its place. -/
theorem found_or_written_of_build
    {file : Path} {given : List Char}
    (hbuild : runOn state (build file layout) = (.ok given, later)) :
    given = state.1.bundler.reference file layout ∧
      ∃ made,
        state.1.tree.makeDirectories (state.1.bundler.bundlePath file layout).parent = .ok made ∧
          ((state.1.bundler.useCache && made.exists? (state.1.bundler.bundlePath file layout)) ∧
              later = ({ state.1 with tree := made }, state.2) ∨
            ∃ text between,
              runOn ({ state.1 with tree := made }, state.2)
                  (buildText file (state.1.bundler.bundlePath file layout)) = (.ok text, between) ∧
                between.1.tree.writeText (state.1.bundler.bundlePath file layout) text =
                  .ok later.1.tree ∧
                later.1.bundler = between.1.bundler) := by
  rw [runOn_build] at hbuild
  dsimp only at hbuild
  split at hbuild
  next => cases hbuild
  next made hmade =>
    split at hbuild
    next hfound =>
      cases hbuild
      exact ⟨rfl, made, hmade, .inl ⟨hfound, rfl⟩⟩
    next =>
      split at hbuild
      next => cases hbuild
      next text between htext =>
        split at hbuild
        next => cases hbuild
        next after hwrite =>
          cases hbuild
          exact ⟨rfl, made, hmade, .inr ⟨text, between, htext, hwrite, rfl⟩⟩

theorem exists_text_of_build
    {file : Path} {given : List Char}
    (hnew : state.1.bundler.useCache = true → ∀ made,
      state.1.tree.makeDirectories (state.1.bundler.bundlePath file layout).parent = .ok made →
        made.exists? (state.1.bundler.bundlePath file layout) = false)
    (hbuild : runOn state (build file layout) = (.ok given, later)) :
    ∃ made text between,
      state.1.tree.makeDirectories (state.1.bundler.bundlePath file layout).parent = .ok made ∧
        runOn ({ state.1 with tree := made }, state.2)
            (buildText file (state.1.bundler.bundlePath file layout)) = (.ok text, between) ∧
        between.1.tree.writeText (state.1.bundler.bundlePath file layout) text =
          .ok later.1.tree ∧
        later.1.bundler = between.1.bundler := by
  obtain ⟨-, made, hmade, ⟨hfound, -⟩ | ⟨text, between, htext, hwrite, hbundler⟩⟩ :=
    found_or_written_of_build hbuild
  · obtain ⟨hcache, hthere⟩ := Bool.and_eq_true_iff.mp hfound
    rw [hnew hcache made hmade] at hthere
    contradiction
  · exact ⟨made, text, between, hmade, htext, hwrite, hbundler⟩

/-- What lies in a bundle's place stays, unless the bundle may be built again. -/
theorem Leaves.keeps
    {bundler : Bundler} {text : List Char} (hhome : ['.', '.'] ∉ tree.home)
    (hleaves : Leaves bundler other tree after) (htext : tree.HasText path place text)
    (hother : bundler.useCache = true ∨ tree.resolve other ≠ place) :
    Tree.Keeps place tree after := by
  cases hleaves with
  | unchanged => exact .refl place tree
  | directory hmade => exact Tree.keeps_makeDirectories hmade place
  | bundle hmade hnew hwrite =>
      have hkeeps := Tree.keeps_makeDirectories hmade place
      refine hkeeps.trans (Tree.keeps_writeText hwrite ?_)
      intro hlocate
      rcases hother with hcache | hother
      · -- With caching the file would have been found, and nothing written.
        have hthere := (htext.keep hkeeps).of_locate hlocate
        rw [hcache, hthere.exists?_eq_true] at hnew
        contradiction
      · rw [← hkeeps.resolve] at hother
        rw [← hkeeps.home] at hhome
        exact hother (Tree.eq_resolve_of_locate hhome hlocate).symm

/-! ## Preparing -/

/-- What a page asks for when it links to a sheet. -/
structure Preparation where
  file : Path
  href : List Char
  attributes : List Char
  after : List Char
  layout : List Char

namespace Preparation

def perform (preparation : Preparation) : Work (List Char) :=
  prepare preparation.file preparation.href preparation.attributes preparation.after
    preparation.layout

def bundlePath (preparation : Preparation) (bundler : Bundler) : Path :=
  bundler.bundlePath preparation.file preparation.layout

def bundlePlace (preparation : Preparation) (workplace : Workplace) : Place :=
  workplace.tree.resolve (preparation.bundlePath workplace.bundler)

/-- The sheet exists, and no bundle of it is found to be used again. -/
structure Builds (preparation : Preparation) (workplace : Workplace) : Prop where
  sheet : workplace.tree.exists? preparation.file = true
  new : workplace.bundler.useCache = true → ∀ made,
    workplace.tree.makeDirectories (preparation.bundlePath workplace.bundler).parent = .ok made →
      made.exists? (preparation.bundlePath workplace.bundler) = false

end Preparation

/-- What is left after preparations, one after the other.  One that fails leaves what it has done
until then. -/
def afterAll (state : Workplace × List Warning) (preparations : List Preparation) :
    Workplace × List Warning :=
  preparations.foldl (fun state preparation => (runOn state preparation.perform).2) state

theorem Preparation.bundlePlace_of_continues
    {before after : Workplace} (preparation : Preparation)
    (hhome : after.tree.home = before.tree.home)
    (hcontinues : Continues before.bundler after.bundler) :
    preparation.bundlePlace after = preparation.bundlePlace before := by
  rw [bundlePlace, bundlePlace, bundlePath, bundlePath, hcontinues.bundlePath, Tree.resolve,
    Tree.resolve, hhome]

theorem perform_leaves (state : Workplace × List Warning) (preparation : Preparation) :
    Leaves state.1.bundler (preparation.bundlePath state.1.bundler) state.1.tree
        (runOn state preparation.perform).2.1.tree ∧
      Continues state.1.bundler (runOn state preparation.perform).2.1.bundler := by
  rw [Preparation.perform, prepare, runOn_bind_pure]
  exact build_leaves state preparation.file preparation.layout

theorem afterAll_keeps
    {text : List Char} {preparations : List Preparation} (hhome : ['.', '.'] ∉ state.1.tree.home)
    (htext : state.1.tree.HasText path place text)
    (hother : state.1.bundler.useCache = true ∨
      ∀ preparation ∈ preparations, preparation.bundlePlace state.1 ≠ place) :
    Tree.Keeps place state.1.tree (afterAll state preparations).1.tree ∧
      Continues state.1.bundler (afterAll state preparations).1.bundler := by
  induction preparations generalizing state with
  | nil => exact ⟨.refl place _, .refl _⟩
  | cons first rest ih =>
      obtain ⟨hleaves, hcontinues⟩ := perform_leaves state first
      have hkeeps := hleaves.keeps hhome htext
        (hother.imp_right fun hall => hall first List.mem_cons_self)
      have hlater : (runOn state first.perform).2.1.bundler.useCache = true ∨
          ∀ preparation ∈ rest, preparation.bundlePlace (runOn state first.perform).2.1 ≠ place := by
        rw [hcontinues.useCache]
        refine hother.imp_right fun hall preparation hmem => ?_
        rw [preparation.bundlePlace_of_continues hkeeps.home hcontinues]
        exact hall preparation (List.mem_cons_of_mem _ hmem)
      obtain ⟨hrest, hmore⟩ := ih (hkeeps.home ▸ hhome) (htext.keep hkeeps) hlater
      exact ⟨hkeeps.trans hrest, hcontinues.trans hmore⟩

/-- Whether or not the bundle was found, the link refers to it. -/
theorem eq_link_of_perform
    {preparation : Preparation} {tag : List Char}
    (hperform : runOn state preparation.perform = (.ok tag, later)) :
    tag = link (state.1.bundler.reference preparation.file preparation.layout) preparation.href
      preparation.attributes preparation.after := by
  obtain ⟨given, _, hbuild, hlink⟩ := runOn_bind_eq_ok_iff.mp hperform
  cases hlink
  rw [(found_or_written_of_build hbuild).1]

/-- A preparation that returns and finds no bundle to use again has built one and listed it. -/
theorem exists_flat_of_perform
    {first : Preparation} {tag : List Char} (hbuilds : first.Builds state.1)
    (hfirst : runOn state first.perform = (.ok tag, later)) :
    ∃ made flat added,
      state.1.tree.makeDirectories (first.bundlePath state.1.bundler).parent = .ok made ∧
        (flatten made first.file bundleLevel).outcome = (.ok flat, added) ∧
        made.writeText (first.bundlePath state.1.bundler) (Sheet.minify flat) = .ok later.1.tree ∧
        first.bundlePath state.1.bundler ∈ later.1.bundler.built := by
  obtain ⟨hsheet, hnew⟩ := hbuilds
  rw [Preparation.bundlePath] at hnew ⊢
  obtain ⟨_, _, hbuild, hlink⟩ := runOn_bind_eq_ok_iff.mp hfirst
  cases hlink
  obtain ⟨made, text, between, hmade, htext, hwrite, hbundler⟩ := exists_text_of_build hnew hbuild
  have hexists : made.exists? first.file = true := Tree.exists?_of_makeDirectories hmade hsheet
  obtain ⟨flat, added, hflat, rfl, htree, hlisted⟩ := exists_flat_of_buildText hexists htext
  rw [htree] at hwrite
  exact ⟨made, flat, added, hmade, hflat, hwrite, hbundler ▸ hlisted⟩

theorem hasText_of_builds
    {first : Preparation} {tag : List Char} (hhome : ['.', '.'] ∉ state.1.tree.home)
    (hbuilds : first.Builds state.1) (hfirst : runOn state first.perform = (.ok tag, later)) :
    ∃ made flat added,
      state.1.tree.makeDirectories (first.bundlePath state.1.bundler).parent = .ok made ∧
        (flatten made first.file bundleLevel).outcome = (.ok flat, added) ∧
        later.1.tree.HasText (first.bundlePath state.1.bundler) (first.bundlePlace state.1)
          (Sheet.minify flat) ∧
        later.1.tree.home = state.1.tree.home ∧
        first.bundlePath state.1.bundler ∈ later.1.bundler.built := by
  obtain ⟨made, flat, added, hmade, hflat, hwrite, hlisted⟩ := exists_flat_of_perform hbuilds hfirst
  have hmadeHome := (Tree.keeps_makeDirectories hmade []).home
  obtain ⟨place, hlocate, -⟩ := Tree.writeText_eq_ok_iff.mp hwrite
  have hplace : place = first.bundlePlace state.1 := by
    rw [Tree.eq_resolve_of_locate (hmadeHome ▸ hhome) hlocate, Preparation.bundlePlace,
      Tree.resolve, Tree.resolve, hmadeHome]
  exact ⟨made, flat, added, hmade, hflat, hplace ▸ Tree.hasText_of_writeText hwrite hlocate hlocate,
    (Tree.home_of_writeText hwrite).trans hmadeHome, hlisted⟩

/-! ## Pruning -/

/-- A path leads to a file that is read as a sheet. -/
def Reads (tree : Tree) (path : Path) (place : Place) (sheet : List Char) : Prop :=
  ∃ text, tree.HasText path place text ∧ unifyNewlines text = sheet

theorem Reads.readText_of_locate
    (hreads : Reads tree path place css) (hother : tree.locate other = .ok place) :
    tree.readText other = .ok css := by
  obtain ⟨text, htext, rfl⟩ := hreads
  exact (htext.of_locate hother).readText

theorem Reads.locate (hreads : Reads tree path place css) : tree.locate path = .ok place := by
  obtain ⟨text, htext, -⟩ := hreads
  exact htext.locate

theorem Reads.readText (hreads : Reads tree path place css) : tree.readText path = .ok css :=
  hreads.readText_of_locate hreads.locate

theorem Reads.keep (hreads : Reads tree path place css) (hkeeps : Tree.Keeps place tree after) :
    Reads after path place css := by
  obtain ⟨text, htext, hcss⟩ := hreads
  exact ⟨text, htext.keep hkeeps, hcss⟩

/-- A pruned bundle is read as it was written. -/
theorem Reads.prune {used : List (List Char)} (hreads : Reads tree path place css)
    (hwrite : tree.writeText other (Sheet.prune used css) = .ok after)
    (hother : tree.locate other = .ok place) : Reads after path place (Sheet.prune used css) := by
  obtain ⟨text, htext, rfl⟩ := hreads
  refine ⟨_, Tree.hasText_of_writeText hwrite hother htext.locate, unifyNewlines_eq_self ?_⟩
  exact fun hmem => notMem_unifyNewlines text ((prune_sublist _ _).subset hmem)

theorem runOn_pruneBundle
    (state : Workplace × List Warning) (used : List (List Char)) (path : Path) :
    runOn state (pruneBundle used path) =
      if state.1.tree.exists? path then
        match state.1.tree.readText path with
        | .error problem => (.error (.file problem), state)
        | .ok sheet =>
          match state.1.tree.writeText path (Sheet.prune used sheet) with
          | .ok tree => (.ok 1, ({ state.1 with tree := tree }, state.2))
          | .error problem => (.error (.file problem), state)
      else (.ok 0, state) := by
  simp only [pruneBundle, runOn_bind, runOn_get]
  split
  next =>
    cases state.1.tree.readText path with
    | error problem => rfl
    | ok sheet =>
        simp only [runOn_bind, runOn_changeTree]
        cases state.1.tree.writeText path (Sheet.prune used sheet) <;> rfl
  next => rfl

theorem reads_pruneBundle
    (hreads : Reads state.1.tree target place css) (used : List (List Char)) (path : Path) :
    Reads (runOn state (pruneBundle used path)).2.1.tree target place css ∨
      Reads (runOn state (pruneBundle used path)).2.1.tree target place
        (Sheet.prune used css) := by
  rw [runOn_pruneBundle]
  split
  next =>
    cases hread : state.1.tree.readText path with
    | error problem => exact .inl hreads
    | ok sheet =>
        dsimp only
        cases hwrite : state.1.tree.writeText path (Sheet.prune used sheet) with
        | error problem => exact .inl hreads
        | ok after =>
            by_cases hlocate : state.1.tree.locate path = .ok place
            · have hsame := hreads.readText_of_locate hlocate
              obtain rfl := Except.ok.inj (hsame.symm.trans hread)
              exact .inr (hreads.prune hwrite hlocate)
            · exact .inl (hreads.keep (Tree.keeps_writeText hwrite hlocate))
  next => exact .inl hreads

theorem reads_pruneBundle_self
    (hreads : Reads state.1.tree target place css) (used : List (List Char)) :
    Reads (runOn state (pruneBundle used target)).2.1.tree target place
      (Sheet.prune used css) := by
  have ⟨text, htext, _⟩ := hreads
  obtain ⟨after, hwrite⟩ := htext.exists_writeText (Sheet.prune used css)
  rw [runOn_pruneBundle, if_pos htext.exists?_eq_true, hreads.readText]
  dsimp only
  rw [hwrite]
  exact hreads.prune hwrite htext.locate

theorem runOn_pruneAll_cons
    (state : Workplace × List Warning) (used : List (List Char)) (path : Path)
    (rest : List Path) :
    runOn state (pruneAll used (path :: rest)) =
      match runOn state (pruneBundle used path) with
      | (.ok first, later) =>
        ((runOn later (pruneAll used rest)).1.map (first + ·), (runOn later (pruneAll used rest)).2)
      | (.error failure, later) => (.error failure, later) := by
  rw [pruneAll, runOn_bind]
  rcases runOn state (pruneBundle used path) with ⟨failure | first, later⟩
  · rfl
  · exact runOn_bind_pure later (pruneAll used rest) (first + ·)

/-- Whatever is pruned, a bundle is read as it was or pruned, and pruned if it is listed and nothing
failed. -/
theorem reads_pruneAll
    (hreads : Reads state.1.tree target place css) (used : List (List Char)) (paths : List Path) :
    (Reads (runOn state (pruneAll used paths)).2.1.tree target place css ∨
        Reads (runOn state (pruneAll used paths)).2.1.tree target place (Sheet.prune used css)) ∧
      ∀ count, (runOn state (pruneAll used paths)).1 = .ok count → target ∈ paths →
        Reads (runOn state (pruneAll used paths)).2.1.tree target place (Sheet.prune used css) := by
  induction paths generalizing state css with
  | nil => exact ⟨.inl hreads, fun _ _ hmem => absurd hmem List.not_mem_nil⟩
  | cons path rest ih =>
      rw [runOn_pruneAll_cons]
      have hbundle := reads_pruneBundle hreads used path
      have hself (heq : target = path) : Reads (runOn state (pruneBundle used path)).2.1.tree target
          place (Sheet.prune used css) := heq ▸ reads_pruneBundle_self hreads used
      generalize runOn state (pruneBundle used path) = outcome at hbundle hself ⊢
      obtain ⟨failure | first, later⟩ := outcome
      · exact ⟨hbundle, fun _ hcount => by contradiction⟩
      · dsimp only at hbundle hself ⊢
        have hkept (hpruned : Reads later.1.tree target place (Sheet.prune used css)) :
            Reads (runOn later (pruneAll used rest)).2.1.tree target place
              (Sheet.prune used css) := by
          have hrest := (ih hpruned).1
          rwa [prune_prune, or_self] at hrest
        constructor
        · rcases hbundle with hsame | hpruned
          · exact (ih hsame).1
          · exact .inr (hkept hpruned)
        · intro count hcount hmem
          obtain ⟨others, hothers, -⟩ := map_eq_ok_iff.mp hcount
          rcases List.mem_cons.mp hmem with heq | hmem
          · exact hkept (hself heq)
          · rcases hbundle with hsame | hpruned
            · exact (ih hsame).2 others hothers hmem
            · exact hkept hpruned

theorem runOn_prune (state : Workplace × List Warning) (page : List Char) :
    runOn state (prune page) =
      match runOn state (pruneAll (usedClasses page) state.1.bundler.built) with
      | (.ok count, later) =>
        (.ok count,
          ({ later.1 with bundler := { later.1.bundler with built := [] } }, later.2))
      | (.error failure, later) => (.error failure, later) := by
  simp only [prune, runOn_bind, runOn_get]
  rcases runOn state (pruneAll (usedClasses page) state.1.bundler.built) with
    ⟨failure | count, later⟩ <;> rfl

/-- A pruning goes through all bundles that are listed, up to the first one that fails. -/
theorem reads_prune
    {page : List Char} {result : Except Failure Nat}
    (hreads : Reads state.1.tree target place css) (hlisted : target ∈ state.1.bundler.built)
    (hprune : runOn state (prune page) = (result, later)) :
    (Reads later.1.tree target place css ∨
        Reads later.1.tree target place (Sheet.prune (usedClasses page) css)) ∧
      ∀ count, result = .ok count →
        Reads later.1.tree target place (Sheet.prune (usedClasses page) css) := by
  obtain ⟨hkept, hpruned⟩ := reads_pruneAll hreads (usedClasses page) state.1.bundler.built
  rw [runOn_prune] at hprune
  generalize runOn state (pruneAll (usedClasses page) state.1.bundler.built) = outcome
    at hkept hpruned hprune
  obtain ⟨failure | count, last⟩ := outcome
  · cases hprune
    exact ⟨hkept, fun _ hcount => by contradiction⟩
  · cases hprune
    exact ⟨hkept, fun _ _ => hpruned count rfl hlisted⟩

/-! ## A bundle between two prunings -/

/-- In any state a bundle that is built is pruned by the next pruning to the classes of its page,
whatever is prepared meanwhile, if no bundle of another sheet is built in its place. -/
theorem readText_prune_of_built
    {built final : Workplace × List Warning} {first : Preparation} {tag page : List Char}
    {between : List Preparation} {result : Except Failure Nat}
    (hhome : ['.', '.'] ∉ state.1.tree.home) (hbuilds : first.Builds state.1)
    (hfirst : runOn state first.perform = (.ok tag, built))
    (hbetween : state.1.bundler.useCache = true ∨
      ∀ preparation ∈ between, preparation.bundlePlace state.1 ≠ first.bundlePlace state.1)
    (hprune : runOn (afterAll built between) (prune page) = (result, final)) :
    tag = link (state.1.bundler.reference first.file first.layout) first.href first.attributes
        first.after ∧
      ∃ made flat added,
        state.1.tree.makeDirectories (first.bundlePath state.1.bundler).parent = .ok made ∧
          (flatten made first.file bundleLevel).outcome = (.ok flat, added) ∧
          let css := unifyNewlines (Sheet.minify flat)
          let pruned := Sheet.prune (usedClasses page) css
          let bundle := final.1.tree.readText (first.bundlePath state.1.bundler)
          (bundle = .ok css ∨ bundle = .ok pruned) ∧
            ∀ count, result = .ok count → bundle = .ok pruned := by
  obtain ⟨made, flat, added, hmade, hflat, htext, hbuiltHome, hlisted⟩ :=
    hasText_of_builds hhome hbuilds hfirst
  refine ⟨eq_link_of_perform hfirst, made, flat, added, hmade, hflat, ?_⟩
  have hcontinues : Continues state.1.bundler built.1.bundler := by
    have hleft := (perform_leaves state first).2
    rwa [hfirst] at hleft
  have hother : built.1.bundler.useCache = true ∨
      ∀ preparation ∈ between, preparation.bundlePlace built.1 ≠ first.bundlePlace state.1 := by
    rw [hcontinues.useCache]
    refine hbetween.imp_right fun hall preparation hmem => ?_
    rw [preparation.bundlePlace_of_continues hbuiltHome hcontinues]
    exact hall preparation hmem
  obtain ⟨hkeeps, hmore⟩ := afterAll_keeps (hbuiltHome ▸ hhome) htext hother
  have hreads : Reads (afterAll built between).1.tree (first.bundlePath state.1.bundler)
      (first.bundlePlace state.1) (unifyNewlines (Sheet.minify flat)) :=
    ⟨_, htext.keep hkeeps, rfl⟩
  obtain ⟨hkept, hpruned⟩ := reads_prune hreads (hmore.built hlisted) hprune
  exact ⟨hkept.imp Reads.readText Reads.readText,
    fun count hcount => (hpruned count hcount).readText⟩

/-- The bundle of one sheet is used again and that of another one is built before both are pruned. -/
theorem readText_prune_of_built_again :
    let tree : Tree :=
      ⟨[([['w'], "page.css".toList], .file (some ".a\x7bx:1\x7d.b\x7bx:2\x7d".toList)),
        ([['w'], "menu.css".toList], .file (some ".c\x7bx:3\x7d".toList))], [['w']]⟩
    let page : Preparation := ⟨⟨false, ["page.css".toList]⟩, [], [], [], []⟩
    let menu : Preparation := ⟨⟨false, ["menu.css".toList]⟩, [], [], [], []⟩
    let state : Workplace × List Warning := (⟨tree, fresh true "cache".toList⟩, [])
    let built := (runOn state page.perform).2
    let text := "<p class=\"b\">".toList
    let final := (runOn (afterAll built [page, menu]) (prune text)).2
    let tag := "<link href=\"\">".toList
    ['.', '.'] ∉ tree.home ∧ page.Builds state.1 ∧ runOn state page.perform = (.ok tag, built) ∧
      runOn (afterAll built [page, menu]) (prune text) = (.ok 2, final) ∧
      tag = link (state.1.bundler.reference page.file page.layout) page.href page.attributes
        page.after ∧
      ∃ made flat added,
        tree.makeDirectories (page.bundlePath state.1.bundler).parent = .ok made ∧
          (flatten made page.file bundleLevel).outcome = (.ok flat, added) ∧
          let css := unifyNewlines (Sheet.minify flat)
          let pruned := Sheet.prune (usedClasses text) css
          let bundle := final.1.tree.readText (page.bundlePath state.1.bundler)
          (bundle = .ok css ∨ bundle = .ok pruned) ∧
            ∀ count, (.ok 2 : Except Failure Nat) = .ok count → bundle = .ok pruned := by
  intro tree page menu state built text final tag
  have hhome : ['.', '.'] ∉ tree.home := by decide
  have hbuilds : page.Builds state.1 := by
    refine ⟨by decide +kernel, fun _ made hmade => ?_⟩
    have hnone : (state.1.tree.makeDirectories
        (page.bundlePath state.1.bundler).parent).toOption.all
          (!·.exists? (page.bundlePath state.1.bundler)) = true := by decide +kernel
    rw [hmade] at hnone
    simpa [Except.toOption] using hnone
  have hfirst : runOn state page.perform = (.ok tag, built) :=
    Prod.ext (toOption_eq_some_iff.mp (by decide +kernel)) rfl
  have hprune : runOn (afterAll built [page, menu]) (prune text) = (.ok 2, final) :=
    Prod.ext (toOption_eq_some_iff.mp (by decide +kernel)) rfl
  exact ⟨hhome, hbuilds, hfirst, hprune,
    readText_prune_of_built hhome hbuilds hfirst (.inl rfl) hprune⟩

/-- With caching a second page finds the bundle as it was pruned for the first one.  The rules that
only the second page uses are gone. -/
theorem readText_prune_of_found :
    let sheet := ".a\x7bcolor:red\x7d.b\x7bcolor:blue\x7d".toList
    let tree : Tree := ⟨[([['w'], "page.css".toList], .file (some sheet))], [['w']]⟩
    let page : Preparation := ⟨⟨false, ["page.css".toList]⟩, "<filename>".toList, [], [], []⟩
    let state : Workplace × List Warning := (⟨tree, fresh true "cache".toList⟩, [])
    let bundle := page.bundlePath state.1.bundler
    let early := (runOn (runOn state page.perform).2 (prune "<p class=\"a\">".toList)).2
    let found := runOn early page.perform
    let late := runOn found.2 (prune "<p class=\"b\">".toList)
    let css := Sheet.minify sheet
    let used := usedClasses "<p class=\"b\">".toList
    tree.exists? bundle = false ∧
      found.1.toOption = some (link (state.1.bundler.reference page.file []) page.href [] []) ∧
      late.1.toOption.isSome ∧
      (flatten early.1.tree page.file bundleLevel).outcome.1.toOption = some sheet ∧
      Sheet.prune used css = ".b\x7bcolor:blue\x7d".toList ∧
      (late.2.1.tree.readText bundle).toOption = some ".a\x7bcolor:red\x7d".toList ∧
      ¬ Sheet.prune used css <:+: ".a\x7bcolor:red\x7d".toList := by
  decide +kernel

end Bundler

end Stencil.Sheet
