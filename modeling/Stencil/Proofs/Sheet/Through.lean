import Stencil.Proofs.Files.Tree
import Stencil.Proofs.Sheet.Reference
import Stencil.Sheet.Flatten

/-!
# Where references are led through

The references of a sheet lead through a path that is made of the targets of imports.  As long as
each target ends in a name, this path leads from one level below the first sheet to the directory
of the sheet.
-/

namespace Stencil.Sheet

open Stencil.Text Stencil.Files

/-! ## Tidy paths -/

theorem tidyPath_congr
    {β : Type} (see : List Char → β)
    (hslash : ∀ front back, see (front ++ "/".toList ++ back) = see (front ++ "//".toList ++ back))
    (hdot : ∀ front back,
      see (front ++ "./".toList ++ back) = see (front ++ "././".toList ++ back))
    (path back : List Char) : see (tidyPath path ++ back) = see (path ++ back) := by
  have hfuel : ∀ fuel path, see (shortenPath fuel path ++ back) = see (path ++ back) := by
    intro fuel path
    fun_induction shortenPath fuel path with
    | case1 path => rfl
    | case2 fuel path hlong ih =>
        have hshort := replaceAll_congr (by decide) see hdot []
          (replaceAll "//".toList ['/'] path) back
        exact (ih.trans hshort).trans (replaceAll_congr (by decide) see hslash [] path back)
    | case3 fuel path hshort => rfl
  exact hfuel path.length path

theorem ofText_tidyPath_append (path back : List Char) :
    Path.ofText (tidyPath path ++ back) = Path.ofText (path ++ back) :=
  tidyPath_congr Path.ofText Path.ofText_double_slash Path.ofText_double_dot_slash path back

theorem mem_tidyPath_iff {c : Char} {path : List Char} : c ∈ tidyPath path ↔ c ∈ path := by
  have hsame := tidyPath_congr (fun text => c ∈ text) (by simp) (by grind) path []
  simpa using hsame

/-! ## Paths in front of references -/

/-- In front of any text the path stands for the names. -/
def LeadsBy (through : List Char) (names : List (List Char)) : Prop :=
  ∀ text, Path.ofText (through ++ text) = ⟨false, names ++ (Path.ofText text).names⟩

theorem leadsBy_bundleLevel : LeadsBy bundleLevel [['.', '.']] := by
  intro text
  have hnames : (Path.ofText (bundleLevel ++ text)).names =
      ['.', '.'] :: (Path.ofText text).names :=
    Path.names_ofText_append_slash ['.', '.'] text
  have hrelative : (bundleLevel ++ text).head? ≠ some '/' := by
    simp [bundleLevel]
  rw [Path.ofText_of_relative hrelative, hnames]
  rfl

section

variable {through : List Char} {names : List (List Char)}

theorem LeadsBy.tidyPath (hleads : LeadsBy through names) : LeadsBy (tidyPath through) names := by
  intro text
  rw [ofText_tidyPath_append, hleads]

theorem LeadsBy.throughOf (hleads : LeadsBy through names) (target : List Char) :
    LeadsBy (throughOf through target)
      (names ++ (Path.ofText (directoryText target)).names) := by
  rw [Sheet.throughOf]
  split
  next hempty =>
    rw [List.isEmpty_iff.mp hempty, Path.names_ofText_nil, List.append_nil]
    exact hleads
  next =>
    intro text
    have htext : through ++ '/' :: directoryText target ++ ['/'] ++ text =
        through ++ '/' :: (directoryText target ++ '/' :: text) := by
      simp
    rw [htext, hleads, Path.names_ofText_slash, Path.names_ofText_append_slash,
      List.append_assoc]

end

/-! ## Trails of imports -/

/-- The path through which references lead in the sheet at the end of a trail of targets. -/
def throughTrail (trail : List (List Char)) : List Char :=
  trail.foldl (fun through target => tidyPath (throughOf through target)) bundleLevel

/-- The sheet at the end of a trail of targets. -/
def sheetAt (root : Path) (trail : List (List Char)) : Path :=
  trail.foldl (fun path target => path.parent.join (Path.ofText target)) root

theorem throughTrail_concat (trail : List (List Char)) (target : List Char) :
    throughTrail (trail ++ [target]) = tidyPath (throughOf (throughTrail trail) target) := by
  rw [throughTrail, List.foldl_concat]
  rfl

theorem sheetAt_concat (root : Path) (trail : List (List Char)) (target : List Char) :
    sheetAt root (trail ++ [target]) = (sheetAt root trail).parent.join (Path.ofText target) := by
  rw [sheetAt, List.foldl_concat]
  rfl

/-- A target that is relative and has a name behind its last slash. -/
def EndsInName (target : List Char) : Prop :=
  target.head? ≠ some '/' ∧ Path.isIdleName (lastName target) = false

def trailNames (trail : List (List Char)) : List (List Char) :=
  trail.flatMap fun target => (Path.ofText (directoryText target)).names

theorem leadsBy_throughTrail (trail : List (List Char)) :
    LeadsBy (throughTrail trail) (['.', '.'] :: trailNames trail) := by
  induction trail using List.reverseRecOn with
  | nil => exact leadsBy_bundleLevel
  | append_singleton trail target ih =>
      rw [throughTrail_concat, trailNames, List.flatMap_append, List.flatMap_singleton, ← List.cons_append]
      exact (ih.throughOf target).tidyPath

theorem parent_sheetAt
    (root : Path) {trail : List (List Char)} (htrail : ∀ target ∈ trail, EndsInName target) :
    (sheetAt root trail).parent = ⟨root.rooted, root.parent.names ++ trailNames trail⟩ := by
  induction trail using List.reverseRecOn with
  | nil => rw [trailNames, List.flatMap_nil, List.append_nil]; rfl
  | append_singleton trail target ih =>
      obtain ⟨hrelative, hname⟩ := htrail target (List.mem_append_right _ (by simp))
      have hparent := ih fun other hother => htrail other (List.mem_append_left _ hother)
      rw [sheetAt_concat, hparent, Path.join, Path.ofText_of_relative hrelative, Path.parent]
      simp only [Bool.false_eq_true, if_false]
      rw [names_ofText_of_name hrelative hname, ← List.append_assoc, List.dropLast_concat,
        trailNames, trailNames, List.flatMap_append, List.flatMap_singleton, List.append_assoc]

/-- The path through which references lead holds no null character if the sheet can be read. -/
theorem null_notMem_throughTrail_concat
    {tree : Tree} {root : Path} {trail : List (List Char)} {target : List Char}
    (hthrough : '\x00' ∉ throughTrail trail)
    (hsheet : tree.LeadsToFile (sheetAt root (trail ++ [target]))) :
    '\x00' ∉ throughTrail (trail ++ [target]) := by
  have htarget : '\x00' ∉ target := by
    intro hmem
    obtain ⟨name, hname, hnull⟩ := Path.exists_mem_names_of_mem hmem (by decide) (by decide)
    refine hsheet.clean name ?_ hnull
    rw [sheetAt_concat, Path.join]
    split
    · exact hname
    · exact List.mem_append_right _ hname
  have hdirectory : '\x00' ∉ directoryText target := fun hmem =>
    htarget (directoryText_subset target hmem)
  rw [throughTrail_concat, mem_tidyPath_iff, throughOf]
  split
  · exact hthrough
  · simp [hthrough, hdirectory]

/-! ## What references mean -/

/-- The place that a reference means in a directory. -/
def placeFrom (directory : Place) (reference : List Char) : Place :=
  Tree.resolve ⟨[], directory⟩ (Path.ofText reference)

theorem placeFrom_eq
    {reference : List Char} {names : List (List Char)}
    (hreference : Path.ofText reference = ⟨false, names⟩) (directory : Place) :
    placeFrom directory reference = Path.resolveNames [] (directory ++ names) := by
  rw [placeFrom, hreference]
  rfl

theorem ofText_dots_append (upwards : Bool) (rest : List Char) :
    Path.ofText (dots upwards ++ rest) =
      ⟨false, (Path.ofText (steps upwards ++ rest)).names⟩ := by
  have hrelative : (dots upwards ++ rest).head? ≠ some '/' := by
    cases upwards <;> simp [dots]
  rw [Path.ofText_of_relative hrelative]
  cases upwards with
  | false =>
      have hnames : (Path.ofText (dots false ++ rest)).names = (Path.ofText rest).names :=
        Path.names_ofText_append_slash ['.'] rest
      rw [hnames]
      rfl
  | true => rfl

variable {tree : Tree} {root : Path} {trail : List (List Char)}

/-- Where the directories of the targets lead from the directory of the first sheet. -/
def trailDirectory (tree : Tree) (root : Path) (trail : List (List Char)) : Place :=
  tree.resolve ⟨root.rooted, root.parent.names ++ trailNames trail⟩

theorem trailDirectory_eq
    (htrail : ∀ target ∈ trail, EndsInName target)
    (hsheet : tree.LeadsToFile (sheetAt root trail)) :
    trailDirectory tree root trail = (tree.resolve (sheetAt root trail)).dropLast := by
  rw [hsheet.dropLast_resolve, parent_sheetAt root htrail, trailDirectory]

/-- One level below the first sheet, a reference that is led through the path of a trail means what
it means at the end of the directories of the trail. -/
theorem placeFrom_throughTrail
    (hroot : tree.LeadsToFile root) {level : List Char} (hlevel : level ≠ ['.', '.'])
    (trail : List (List Char)) (upwards : Bool) (rest : List Char) :
    placeFrom ((tree.resolve root).dropLast ++ [level])
        (throughTrail trail ++ steps upwards ++ rest) =
      placeFrom (trailDirectory tree root trail) (dots upwards ++ rest) := by
  have hled := leadsBy_throughTrail trail (steps upwards ++ rest)
  rw [← List.append_assoc] at hled
  rw [placeFrom_eq hled, placeFrom_eq (ofText_dots_append upwards rest), hroot.dropLast_resolve,
    Tree.resolve, List.append_assoc, Path.resolveNames_resolveNames_append,
    List.singleton_append, List.cons_append, Path.resolveNames_down_up hlevel, trailDirectory,
    Tree.resolve, Path.resolveNames_resolveNames_append, List.append_assoc, List.append_assoc,
    List.append_assoc]
  rfl

end Stencil.Sheet
