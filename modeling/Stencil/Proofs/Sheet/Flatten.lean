import Stencil.Proofs.Logged
import Stencil.Proofs.Sheet.Through
import Mathlib.Data.List.Perm.Subperm

/-!
# What a flat sheet consists of

A flat sheet consists of texts that are copied from its sheets and of their relative references,
each led through the path to the sheet that it stands in.  What is put in the place of an import is
not looked at again.
-/

namespace Stencil.Sheet

open Stencil.Text Stencil.Files

/-! ## Stretches -/

/-- A text that is copied, or a relative reference of the sheet at the end of a trail. -/
inductive Stretch where
  | copied (text : List Char)
  | reference (trail : List (List Char)) (relative : Relative)

def Stretch.written : Stretch → List Char
  | .copied text => text
  | .reference trail relative => relative.lead ++ throughTrail trail ++ steps relative.upwards

/-- The stretches of a text of the sheet at the end of a trail. -/
def stretchesOf (trail : List (List Char)) (text : List Char) : List Stretch :=
  (cut relative? text).map fun
    | .plain kept => .copied kept
    | .hit _ relative => .reference trail relative

theorem flatMap_written_stretchesOf (trail : List (List Char)) (text : List Char) :
    (stretchesOf trail text).flatMap Stretch.written = leadReferences (throughTrail trail) text := by
  rw [stretchesOf, List.flatMap_map, leadReferences, substitute]
  apply List.flatMap_congr
  rintro (kept | ⟨found, relative⟩) - <;> rfl

theorem trail_eq_of_mem
    {trail place : List (List Char)} {text : List Char} {relative : Relative}
    (hmem : .reference place relative ∈ stretchesOf trail text) : place = trail := by
  obtain ⟨piece, -, heq⟩ := List.mem_map.mp hmem
  cases piece with
  | plain kept => contradiction
  | hit found value => exact (Stretch.reference.inj heq).1.symm

variable {tree : Tree} {root : Path}

mutual

/-- The stretches of the flat form of the sheet at the end of a trail; `chain` holds the places of
the sheets on the way to it. -/
inductive Flat (tree : Tree) (root : Path) :
    List Place → List (List Char) → List Stretch → Prop
  | cycle {chain : List Place} {trail : List (List Char)}
      (hclean : (sheetAt root trail).hasNull = false)
      (hcycle : tree.resolve (sheetAt root trail) ∈ chain) : Flat tree root chain trail []
  | missing {chain : List Place} {trail : List (List Char)}
      (hnew : tree.resolve (sheetAt root trail) ∉ chain)
      (hmissing : tree.readText (sheetAt root trail) = .error .notFound) :
      Flat tree root chain trail [.copied (missingNote (sheetAt root trail))]
  | sheet {chain : List Place} {trail : List (List Char)} {sheet text : List Char}
      {targets : List (List Char)} {stretches : List Stretch}
      (hnew : tree.resolve (sheetAt root trail) ∉ chain)
      (hread : tree.readText (sheetAt root trail) = .ok sheet)
      (hsource : takeImports 0 (cut importStatement? sheet) = (text, targets))
      (hfilled : Filled tree root (tree.resolve (sheetAt root trail) :: chain) trail targets
        (cut importMark? text) stretches) :
      Flat tree root chain trail stretches

/-- The stretches of pieces of a sheet, with the flat forms of its imports in the places of their
marks. -/
inductive Filled (tree : Tree) (root : Path) :
    List Place → List (List Char) → List (List Char) → List (Piece Nat) → List Stretch → Prop
  | nil {chain : List Place} {trail targets : List (List Char)} :
      Filled tree root chain trail targets [] []
  | plain {chain : List Place} {trail targets : List (List Char)} {text : List Char}
      {pieces : List (Piece Nat)} {stretches : List Stretch}
      (hrest : Filled tree root chain trail targets pieces stretches) :
      Filled tree root chain trail targets (.plain text :: pieces)
        (stretchesOf trail text ++ stretches)
  | mark {chain : List Place} {trail targets : List (List Char)} {found target : List Char}
      {number : Nat} {pieces : List (Piece Nat)} {inner outer : List Stretch}
      (htarget : targets[number]? = some target)
      (hsheet : Flat tree root chain (trail ++ [target]) inner)
      (hrest : Filled tree root chain trail targets pieces outer) :
      Filled tree root chain trail targets (.hit found number :: pieces) (inner ++ outer)

end

/-! ## Flattening -/

theorem exists_filled_of_fill
    {chain : List Place} {trail targets : List (List Char)} {pieces : List (Piece Nat)}
    {replace : Nat → Logged Failure (List Char)} {log later : List Warning} {flat : List Char}
    (hreplace : ∀ number inner before behind,
      Logged.after before (replace number) = (.ok inner, behind) →
        ∃ target stretches, targets[number]? = some target ∧
          Flat tree root chain (trail ++ [target]) stretches ∧
          inner = stretches.flatMap Stretch.written)
    (hflat : Logged.after log
      (fill replace (pieces.map (leadPiece (throughTrail trail)))) = (.ok flat, later)) :
    ∃ stretches, Filled tree root chain trail targets pieces stretches ∧
      flat = stretches.flatMap Stretch.written := by
  induction pieces generalizing log flat with
  | nil =>
      cases hflat
      exact ⟨[], .nil, rfl⟩
  | cons piece pieces ih =>
      cases piece with
      | plain text =>
          obtain ⟨others, between, hothers, hflat⟩ := Logged.after_bind_eq_ok_iff.mp hflat
          cases hflat
          obtain ⟨stretches, hfilled, rfl⟩ := ih hothers
          refine ⟨_, .plain hfilled, ?_⟩
          rw [List.flatMap_append, flatMap_written_stretchesOf]
      | hit found number =>
          obtain ⟨inner, between, hinner, hflat⟩ := Logged.after_bind_eq_ok_iff.mp hflat
          obtain ⟨others, behind, hothers, hflat⟩ := Logged.after_bind_eq_ok_iff.mp hflat
          cases hflat
          obtain ⟨target, stretches, htarget, hsheet, rfl⟩ := hreplace number inner _ _ hinner
          obtain ⟨outer, hfilled, rfl⟩ := ih hothers
          exact ⟨_, .mark htarget hsheet hfilled, List.flatMap_append.symm⟩

/-- The places on the way to a sheet are different files, and there are not more of them than
files. -/
theorem length_le_of_files
    {chain : List Place} (hnodup : chain.Nodup)
    (hfiles : ∀ place ∈ chain, (tree.file? place).isSome) :
    chain.length ≤ tree.entries.length := by
  have hsubset : chain ⊆ tree.entries.map Prod.fst := by
    intro place hplace
    obtain ⟨text, hfile⟩ := Option.isSome_iff_exists.mp (hfiles place hplace)
    exact List.mem_map_of_mem (Tree.mem_entries_of_some (Tree.entry?_of_file? hfile))
  have hlength := (hnodup.subperm hsubset).length_le
  rwa [List.length_map] at hlength

theorem exists_flat_of_flattenWithin
    (hsound : tree.Sound) {depth : Nat} {chain : List Place} {trail : List (List Char)}
    {through : List Char} {log later : List Warning} {flat : List Char}
    (hthrough : tidyPath through = throughTrail trail)
    (hdepth : tree.entries.length + 2 ≤ depth + chain.length) (hnodup : chain.Nodup)
    (hfiles : ∀ place ∈ chain, (tree.file? place).isSome)
    (hclean : tree.LeadsToFile (sheetAt root trail) → '\x00' ∉ throughTrail trail)
    (hflat : Logged.after log (flattenWithin tree depth chain (sheetAt root trail) through) =
      (.ok flat, later)) :
    ∃ stretches, Flat tree root chain trail stretches ∧
      flat = stretches.flatMap Stretch.written := by
  induction depth generalizing chain trail through log later flat with
  | zero =>
      have hshort := length_le_of_files hnodup hfiles
      omega
  | succ depth ih =>
      rw [flattenWithin] at hflat
      simp only [hthrough] at hflat
      split at hflat
      next hcycle =>
        cases hflat
        obtain ⟨hclean, hcycle⟩ : (sheetAt root trail).hasNull = false ∧
            tree.resolve (sheetAt root trail) ∈ chain := by simpa using hcycle
        exact ⟨[], .cycle hclean hcycle, rfl⟩
      next hnew =>
        have hnew : (sheetAt root trail).hasNull = false →
            tree.resolve (sheetAt root trail) ∉ chain := by simpa using hnew
        split at hflat
        next hmissing =>
          cases hflat
          have hnew := hnew (Tree.hasNull_eq_false_of_readText hmissing (by simp))
          exact ⟨_, .missing hnew hmissing, (List.append_nil _).symm⟩
        next => exact absurd hflat Logged.after_throw_ne_ok
        next sheet hread =>
          have hnew := hnew (Tree.hasNull_eq_false_of_readText hread (by simp))
          have hfile := hsound.leadsToFile_of_readText hread
          rcases hsource : takeImports 0 (cut importStatement? sheet) with ⟨text, targets⟩
          have hparts : Source.ofSheet (throughTrail trail) sheet =
              ⟨leadReferences (throughTrail trail) text, targets⟩ := by
            rw [Source.ofSheet, hsource]
          rw [hparts, cut_leadReferences (hclean hfile)] at hflat
          have hfill : ∃ stretches,
              Filled tree root (tree.resolve (sheetAt root trail) :: chain) trail targets
                (cut importMark? text) stretches ∧ flat = stretches.flatMap Stretch.written := by
            refine exists_filled_of_fill ?_ hflat
            intro number inner before behind hrun
            split at hrun
            next => exact absurd hrun Logged.after_throw_ne_ok
            next target htarget =>
              rw [← sheetAt_concat] at hrun
              obtain ⟨stretches, hsheet, hinner⟩ := ih (throughTrail_concat trail target).symm
                (by rw [List.length_cons]; omega) (List.nodup_cons.mpr ⟨hnew, hnodup⟩)
                (List.forall_mem_cons.mpr ⟨hfile.file, hfiles⟩)
                (null_notMem_throughTrail_concat (hclean hfile)) hrun
              exact ⟨target, stretches, htarget, hsheet, hinner⟩
          obtain ⟨stretches, hfilled, rfl⟩ := hfill
          exact ⟨stretches, .sheet hnew hread hsource hfilled, rfl⟩

/-! ## References -/

mutual

theorem Flat.leadsToFile
    (hsound : tree.Sound) {chain : List Place} {trail : List (List Char)}
    {stretches : List Stretch} :
    Flat tree root chain trail stretches →
      ∀ {place relative}, .reference place relative ∈ stretches →
        tree.LeadsToFile (sheetAt root place)
  | .cycle _ _, _, _, hmem => by contradiction
  | .missing _ _, _, _, hmem => by simp at hmem
  | .sheet _ hread _ hfilled, _, _, hmem =>
      hfilled.leadsToFile hsound (hsound.leadsToFile_of_readText hread) hmem

theorem Filled.leadsToFile
    (hsound : tree.Sound) {chain : List Place} {trail targets : List (List Char)}
    {pieces : List (Piece Nat)} {stretches : List Stretch} :
    Filled tree root chain trail targets pieces stretches →
      tree.LeadsToFile (sheetAt root trail) →
        ∀ {place relative}, .reference place relative ∈ stretches →
          tree.LeadsToFile (sheetAt root place)
  | .nil, _, _, _, hmem => by contradiction
  | .plain hrest, hsheet, _, _, hmem => by
      rcases List.mem_append.mp hmem with hmem | hmem
      · rwa [trail_eq_of_mem hmem]
      · exact hrest.leadsToFile hsound hsheet hmem
  | .mark _ hinner hrest, hsheet, _, _, hmem => by
      rcases List.mem_append.mp hmem with hmem | hmem
      · exact hinner.leadsToFile hsound hmem
      · exact hrest.leadsToFile hsound hsheet hmem

end

theorem Flat.leadsToFile_root
    (hsound : tree.Sound) {stretches : List Stretch} (hflat : Flat tree root [] [] stretches)
    {trail : List (List Char)} {relative : Relative}
    (hmem : .reference trail relative ∈ stretches) : tree.LeadsToFile root := by
  cases hflat with
  | cycle => contradiction
  | missing => simp at hmem
  | sheet _ hread _ _ => exact hsound.leadsToFile_of_readText hread

/-- A flat sheet consists of its stretches.  One level below the first sheet, a reference leads to
what it leads to at the end of the directories of its trail, and this is next to its own sheet if
all targets of the trail end in names. -/
theorem references_of_flatten
    (hsound : tree.Sound) {flat : List Char}
    (hflat : (flatten tree root bundleLevel).outcome.1 = .ok flat) :
    ∃ stretches, Flat tree root [] [] stretches ∧ flat = stretches.flatMap Stretch.written ∧
      ∀ trail relative, .reference trail relative ∈ stretches →
        (∀ level, level ≠ ['.', '.'] → ∀ rest,
          placeFrom ((tree.resolve root).dropLast ++ [level])
              (throughTrail trail ++ steps relative.upwards ++ rest) =
            placeFrom (trailDirectory tree root trail) (dots relative.upwards ++ rest)) ∧
        ((∀ target ∈ trail, EndsInName target) →
          trailDirectory tree root trail = (tree.resolve (sheetAt root trail)).dropLast) := by
  have hnull : '\x00' ∉ throughTrail [] := by decide
  obtain ⟨stretches, hstretches, hwritten⟩ :=
    exists_flat_of_flattenWithin hsound rfl (by simp) List.nodup_nil (by simp) (fun _ => hnull)
      (Prod.ext hflat rfl)
  refine ⟨stretches, hstretches, hwritten, ?_⟩
  intro trail relative hmem
  have hroot := hstretches.leadsToFile_root hsound hmem
  have hsheet := hstretches.leadsToFile hsound hmem
  exact ⟨fun level hlevel rest => placeFrom_throughTrail hroot hlevel trail relative.upwards rest,
    fun htrail => trailDirectory_eq htrail hsheet⟩

/-- The imported sheet refers to what lies beside its directory. -/
theorem references_of_flatten_nested :
    let tree : Tree :=
      ⟨[([['w'], "a.css".toList], .file (some "@import \"b/c.css\";".toList)),
        ([['w'], ['b'], "c.css".toList], .file (some "url(../i)".toList))], [['w']]⟩
    let root : Path := ⟨false, ["a.css".toList]⟩
    tree.Sound ∧ (flatten tree root bundleLevel).outcome.1 = .ok "url(../b/../i)".toList ∧
      EndsInName "b/c.css".toList ∧
      ∃ stretches, Flat tree root [] [] stretches ∧
        "url(../b/../i)".toList = stretches.flatMap Stretch.written ∧
        ∀ trail relative, .reference trail relative ∈ stretches →
          (∀ level, level ≠ ['.', '.'] → ∀ rest,
            placeFrom ((tree.resolve root).dropLast ++ [level])
                (throughTrail trail ++ steps relative.upwards ++ rest) =
              placeFrom (trailDirectory tree root trail) (dots relative.upwards ++ rest)) ∧
          ((∀ target ∈ trail, EndsInName target) →
            trailDirectory tree root trail = (tree.resolve (sheetAt root trail)).dropLast) := by
  intro tree root
  have hsound : tree.Sound := by decide +kernel
  have hflat : (flatten tree root bundleLevel).outcome.1 = .ok "url(../b/../i)".toList := by
    rw [← toOption_eq_some_iff]
    decide +kernel
  have hname : EndsInName "b/c.css".toList := by
    unfold EndsInName
    decide +kernel
  exact ⟨hsound, hflat, hname, references_of_flatten hsound hflat⟩

/-- A slash behind the name of a sheet makes a directory of it in the references, though not when
the sheet is read. -/
theorem references_of_flatten_slash :
    let tree : Tree :=
      ⟨[([['w'], "a.css".toList], .file (some "@import \"b.css/\";".toList)),
        ([['w'], "b.css".toList], .file (some "url(./i)".toList))], [['w']]⟩
    let root : Path := ⟨false, ["a.css".toList]⟩
    tree.Sound ∧ (flatten tree root bundleLevel).outcome.1 = .ok "url(../b.css/i)".toList ∧
      placeFrom ((tree.resolve root).dropLast ++ ["cache".toList]) "../b.css/i".toList ≠
        placeFrom (tree.resolve (sheetAt root ["b.css/".toList])).dropLast "./i".toList := by
  intro tree root
  rw [← toOption_eq_some_iff]
  decide +kernel

end Stencil.Sheet
