import Stencil.Proofs.Sheet.Flatten
import Mathlib.Data.Finset.Basic

/-!
# The calls that flatten a sheet

To flatten a sheet is a call that makes a call for every import.  All these calls share one set,
the chain: a call puts its sheet into the chain when it has read it, and takes it out again when
it ends, however it ends.  `Runs` describes the calls step by step, with the chain as a state that
is handed on, also by calls that fail.  Every call is recorded with the files that were opened on
the way to it, so that what the chain has to do with them can be said of each.
-/

namespace Stencil.Sheet

open Stencil.Text Stencil.Files

/-! ## Calls -/

/-- What a call begins with.  `stack` holds the files that the calls on the way to it have opened,
the last one first, and `chain` is the chain at that moment. -/
structure Start where
  stack : List Place
  path : Path
  through : List Char
  chain : Finset Place

/-- What a call does with its sheet. -/
inductive Deed where
  /-- It is being flattened already. -/
  | skipped
  | missing
  /-- It cannot be read. -/
  | refused
  | flattened

/-- What a call ends with. -/
structure Finish where
  outcome : Except Failure (List Char)
  warnings : List Warning
  chain : Finset Place

structure Call where
  start : Start
  deed : Deed
  finish : Finish

/-- The warning that a call gives itself. -/
def Call.notes (call : Call) : List Warning :=
  match call.deed with
  | .skipped => [.sheetCycle call.start.path.text]
  | .missing => [.sheetMissing call.start.path.text]
  | .refused | .flattened => []

/-- What the calls for the imports of a sheet have in common. -/
structure Frame where
  stack : List Place
  directory : Path
  through : List Char
  targets : List (List Char)

def Frame.start (frame : Frame) (chain : Finset Place) (target : List Char) : Start :=
  ⟨frame.stack, frame.directory.join (Path.ofText target), throughOf frame.through target, chain⟩

/-- The frame of a sheet that was opened at a place. -/
def Start.frame (start : Start) (place : Place) (source : Source) : Frame :=
  ⟨place :: start.stack, start.path.parent, tidyPath start.through, source.targets⟩

/-- A text and earlier warnings before what comes later; the chain is the later one. -/
def Finish.behind (text : List Char) (warnings : List Warning) (finish : Finish) : Finish :=
  ⟨finish.outcome.map (text ++ ·), warnings ++ finish.warnings, finish.chain⟩

mutual

/-- A call ends after the calls that were made in it, which are listed in the order in which they
end. -/
inductive Runs (tree : Tree) : Call → List Call → Prop
  | skipped {start : Start} (hclean : start.path.hasNull = false)
      (hcycle : tree.resolve start.path ∈ start.chain) :
      Runs tree
        ⟨start, .skipped, ⟨.ok [], [.sheetCycle start.path.text], start.chain⟩⟩ []
  | missing {start : Start} (hnew : tree.resolve start.path ∉ start.chain)
      (hmissing : tree.readText start.path = .error .notFound) :
      Runs tree
        ⟨start, .missing,
          ⟨.ok (missingNote start.path), [.sheetMissing start.path.text], start.chain⟩⟩ []
  | refused {start : Start} {problem : Problem}
      (hnew : start.path.hasNull = false → tree.resolve start.path ∉ start.chain)
      (hrefused : tree.readText start.path = .error problem) (hproblem : problem ≠ .notFound) :
      Runs tree ⟨start, .refused, ⟨.error (.file problem), [], start.chain⟩⟩ []
  | flattened {start : Start} {place : Place} {sheet : List Char} {finish : Finish}
      {calls : List Call} (hnew : tree.resolve start.path ∉ start.chain)
      (hplace : tree.locate start.path = .ok place)
      (hread : tree.readText start.path = .ok sheet)
      (hfills : Fills tree (start.frame place (Source.ofSheet (tidyPath start.through) sheet))
        (insert (tree.resolve start.path) start.chain)
        (cut importMark? (Source.ofSheet (tidyPath start.through) sheet).text) finish calls) :
      Runs tree
        ⟨start, .flattened,
          { finish with chain := finish.chain.erase (tree.resolve start.path) }⟩ calls

/-- The marks of a sheet are filled one after the other, each by a call, up to the end or up to
the first one that fails. -/
inductive Fills (tree : Tree) :
    Frame → Finset Place → List (Piece Nat) → Finish → List Call → Prop
  | nil {frame : Frame} {chain : Finset Place} : Fills tree frame chain [] ⟨.ok [], [], chain⟩ []
  | plain {frame : Frame} {chain : Finset Place} {text : List Char} {pieces : List (Piece Nat)}
      {finish : Finish} {calls : List Call} (hrest : Fills tree frame chain pieces finish calls) :
      Fills tree frame chain (.plain text :: pieces) (finish.behind text []) calls
  | unknown {frame : Frame} {chain : Finset Place} {found : List Char} {number : Nat}
      {pieces : List (Piece Nat)} (htarget : frame.targets[number]? = none) :
      Fills tree frame chain (.hit found number :: pieces) ⟨.error .unknownImport, [], chain⟩ []
  | failed {frame : Frame} {chain : Finset Place} {found target : List Char} {number : Nat}
      {pieces : List (Piece Nat)} {deed : Deed} {finish : Finish} {failure : Failure}
      {calls : List Call} (htarget : frame.targets[number]? = some target)
      (hcall : Runs tree ⟨frame.start chain target, deed, finish⟩ calls)
      (hfailure : finish.outcome = .error failure) :
      Fills tree frame chain (.hit found number :: pieces) finish
        (calls ++ [⟨frame.start chain target, deed, finish⟩])
  | filled {frame : Frame} {chain : Finset Place} {found target text : List Char} {number : Nat}
      {pieces : List (Piece Nat)} {deed : Deed} {first finish : Finish} {calls others : List Call}
      (htarget : frame.targets[number]? = some target)
      (hcall : Runs tree ⟨frame.start chain target, deed, first⟩ calls)
      (htext : first.outcome = .ok text)
      (hrest : Fills tree frame first.chain pieces finish others) :
      Fills tree frame chain (.hit found number :: pieces) (finish.behind text first.warnings)
        (calls ++ ⟨frame.start chain target, deed, first⟩ :: others)

end

variable {tree : Tree}

/-! ## The chain and the warnings -/

mutual

theorem Runs.chain_eq {call : Call} {calls : List Call} :
    Runs tree call calls → call.finish.chain = call.start.chain
  | .skipped _ _ => rfl
  | .missing _ _ => rfl
  | .refused _ _ _ => rfl
  | .flattened hnew _ _ hfills => by
      rw [hfills.chain_eq]
      exact Finset.erase_insert hnew

theorem Fills.chain_eq
    {frame : Frame} {chain : Finset Place} {pieces : List (Piece Nat)} {finish : Finish}
    {calls : List Call} : Fills tree frame chain pieces finish calls → finish.chain = chain
  | .nil => rfl
  | .plain hrest => hrest.chain_eq
  | .unknown _ => rfl
  | .failed _ hcall _ => hcall.chain_eq
  | .filled _ hcall _ hrest => hrest.chain_eq.trans hcall.chain_eq

end

mutual

theorem Runs.warnings_eq {call : Call} {calls : List Call} :
    Runs tree call calls → call.finish.warnings = (calls ++ [call]).flatMap Call.notes
  | .skipped _ _ => rfl
  | .missing _ _ => rfl
  | .refused _ _ _ => rfl
  | .flattened _ _ _ hfills => by
      rw [List.flatMap_append, ← hfills.warnings_eq]
      exact (List.append_nil _).symm

theorem Fills.warnings_eq
    {frame : Frame} {chain : Finset Place} {pieces : List (Piece Nat)} {finish : Finish}
    {calls : List Call} :
    Fills tree frame chain pieces finish calls → finish.warnings = calls.flatMap Call.notes
  | .nil => rfl
  | .plain hrest => hrest.warnings_eq
  | .unknown _ => rfl
  | .failed _ hcall _ => hcall.warnings_eq
  | .filled _ hcall _ hrest => by
      rw [List.append_cons, List.flatMap_append, ← hcall.warnings_eq, ← hrest.warnings_eq]
      rfl

end

/-! ## Only one run -/

mutual

/-- What a call begins with determines what it does. -/
theorem Runs.unique {call other : Call} {calls others : List Call} :
    Runs tree call calls → Runs tree other others → call.start = other.start →
      other = call ∧ others = calls
  | .skipped hclean hcycle, hother, hstart => by
      cases hother with
      | skipped =>
          cases hstart
          exact ⟨rfl, rfl⟩
      | missing hnew | flattened hnew =>
          cases hstart
          contradiction
      | refused hnew =>
          cases hstart
          exact absurd hcycle (hnew hclean)
  | .missing hnew hmissing, hother, hstart => by
      cases hother with
      | skipped =>
          cases hstart
          contradiction
      | missing =>
          cases hstart
          exact ⟨rfl, rfl⟩
      | refused _ hrefused hproblem =>
          cases hstart
          exact absurd (Except.error.inj (hrefused.symm.trans hmissing)) hproblem
      | flattened _ _ hread =>
          cases hstart
          rw [hmissing] at hread
          contradiction
  | .refused hnew hrefused hproblem, hother, hstart => by
      cases hother with
      | skipped hclean hcycle =>
          cases hstart
          exact absurd hcycle (hnew hclean)
      | missing _ hmissing =>
          cases hstart
          exact absurd (Except.error.inj (hrefused.symm.trans hmissing)) hproblem
      | refused _ hagain =>
          cases hstart
          obtain rfl := Except.error.inj (hrefused.symm.trans hagain)
          exact ⟨rfl, rfl⟩
      | flattened _ _ hread =>
          cases hstart
          rw [hrefused] at hread
          contradiction
  | .flattened hnew hplace hread hfills, hother, hstart => by
      cases hother with
      | skipped =>
          cases hstart
          contradiction
      | missing _ hmissing | refused _ hmissing =>
          cases hstart
          rw [hread] at hmissing
          contradiction
      | flattened _ hthere hagain hothers =>
          cases hstart
          obtain rfl := Except.ok.inj (hplace.symm.trans hthere)
          obtain rfl := Except.ok.inj (hread.symm.trans hagain)
          obtain ⟨rfl, rfl⟩ := hfills.unique hothers
          exact ⟨rfl, rfl⟩
termination_by structural hruns => hruns

theorem Fills.unique
    {frame : Frame} {chain : Finset Place} {pieces : List (Piece Nat)}
    {finish otherFinish : Finish} {calls others : List Call} :
    Fills tree frame chain pieces finish calls →
      Fills tree frame chain pieces otherFinish others → otherFinish = finish ∧ others = calls
  | .nil, hother => by
      cases hother with
      | nil => exact ⟨rfl, rfl⟩
  | .plain hrest, hother => by
      cases hother with
      | plain hagain =>
          obtain ⟨rfl, rfl⟩ := hrest.unique hagain
          exact ⟨rfl, rfl⟩
  | .unknown htarget, hother => by
      cases hother with
      | unknown => exact ⟨rfl, rfl⟩
      | failed hsome | filled hsome =>
          rw [htarget] at hsome
          contradiction
  | .failed htarget hcall hfailure, hother => by
      cases hother with
      | unknown hnone =>
          rw [htarget] at hnone
          contradiction
      | failed hsome hagain =>
          obtain rfl := Option.some.inj (htarget.symm.trans hsome)
          obtain ⟨hsame, rfl⟩ := hcall.unique hagain rfl
          cases hsame
          exact ⟨rfl, rfl⟩
      | filled hsome hagain htext =>
          obtain rfl := Option.some.inj (htarget.symm.trans hsome)
          obtain ⟨hsame, -⟩ := hcall.unique hagain rfl
          cases hsame
          rw [hfailure] at htext
          contradiction
  | .filled htarget hcall htext hrest, hother => by
      cases hother with
      | unknown hnone =>
          rw [htarget] at hnone
          contradiction
      | failed hsome hagain hfailure =>
          obtain rfl := Option.some.inj (htarget.symm.trans hsome)
          obtain ⟨hsame, -⟩ := hcall.unique hagain rfl
          cases hsame
          rw [htext] at hfailure
          contradiction
      | filled hsome hagain hequal hothers =>
          obtain rfl := Option.some.inj (htarget.symm.trans hsome)
          obtain ⟨hsame, rfl⟩ := hcall.unique hagain rfl
          cases hsame
          obtain rfl := Except.ok.inj (htext.symm.trans hequal)
          obtain ⟨rfl, rfl⟩ := hrest.unique hothers
          exact ⟨rfl, rfl⟩
termination_by structural hfills => hfills

end

/-! ## What is being flattened -/

/-- The chain holds the files that are open on the way, which are all different. -/
structure Tracks (tree : Tree) (stack : List Place) (chain : Finset Place) : Prop where
  chain : chain = stack.toFinset
  nodup : stack.Nodup
  files : ∀ place ∈ stack, (tree.file? place).isSome

theorem Tracks.empty : Tracks tree [] ∅ :=
  ⟨rfl, List.nodup_nil, by simp⟩

variable {stack : List Place} {chain : Finset Place} {path : Path} {place : Place}

theorem Tracks.mem_chain_iff (htracks : Tracks tree stack chain) :
    place ∈ chain ↔ place ∈ stack := by
  rw [htracks.chain, List.mem_toFinset]

/-- However a path is spelled, it leads to a file on the way only if it means one in the chain. -/
theorem Tracks.notMem_stack
    (hsound : tree.Sound) (htracks : Tracks tree stack chain) (hnew : tree.resolve path ∉ chain)
    (hplace : tree.locate path = .ok place) : place ∉ stack := by
  rwa [← htracks.mem_chain_iff, ← hsound.resolve_of_locate hplace]

theorem Tracks.cons
    (hsound : tree.Sound) (htracks : Tracks tree stack chain) (hnew : tree.resolve path ∉ chain)
    (hplace : tree.locate path = .ok place) (hfile : (tree.file? place).isSome) :
    Tracks tree (place :: stack) (insert (tree.resolve path) chain) := by
  have hother := htracks.notMem_stack hsound hnew hplace
  refine ⟨?_, List.nodup_cons.mpr ⟨hother, htracks.nodup⟩,
    List.forall_mem_cons.mpr ⟨hfile, htracks.files⟩⟩
  rw [htracks.chain, List.toFinset_cons, hsound.resolve_of_locate hplace]

/-- What a call has to do with the files that are being flattened. -/
structure Call.Exact (tree : Tree) (call : Call) : Prop where
  tracks : Tracks tree call.start.stack call.start.chain
  /-- No file is opened that was opened on the way. -/
  opensNew : call.deed ≠ .skipped → ∀ place, tree.locate call.start.path = .ok place →
    place ∉ call.start.stack
  /-- A path with a null character in it means no file, whatever its other names are. -/
  skipped_iff : call.deed = .skipped ↔
    call.start.path.hasNull = false ∧ tree.resolve call.start.path ∈ call.start.stack
  flattened_iff : call.deed = .flattened ↔
    tree.resolve call.start.path ∉ call.start.stack ∧
      ∃ sheet, tree.readText call.start.path = .ok sheet
  restores : call.finish.chain = call.start.chain

theorem Runs.exact
    (hsound : tree.Sound) {call : Call} {calls : List Call} (hruns : Runs tree call calls)
    (htracks : Tracks tree call.start.stack call.start.chain) : call.Exact tree := by
  have hrestores := hruns.chain_eq
  cases hruns with
  | skipped hclean hcycle =>
      have hopen := htracks.mem_chain_iff.mp hcycle
      exact ⟨htracks, fun hnot => absurd rfl hnot, iff_of_true rfl ⟨hclean, hopen⟩,
        iff_of_false (by simp) fun hnew => hnew.1 hopen, hrestores⟩
  | missing hnew hread =>
      have hnotOpen := mt htracks.mem_chain_iff.mpr hnew
      exact ⟨htracks, fun _ place hplace => htracks.notMem_stack hsound hnew hplace,
        iff_of_false (by simp) (by simp [hnotOpen]), iff_of_false (by simp) (by simp [hread]),
        hrestores⟩
  | refused hnew hread =>
      have hnotOpen := fun hclean => mt htracks.mem_chain_iff.mpr (hnew hclean)
      refine ⟨htracks, fun _ place hplace => ?_, iff_of_false (by simp) (by simpa using hnotOpen),
        iff_of_false (by simp) (by simp [hread]), hrestores⟩
      have hclean := (Tree.locate_eq_ok_iff.mp hplace).1
      exact htracks.notMem_stack hsound (hnew hclean) hplace
  | flattened hnew hplace hread =>
      have hnotOpen := mt htracks.mem_chain_iff.mpr hnew
      exact ⟨htracks, fun _ place hplace => htracks.notMem_stack hsound hnew hplace,
        iff_of_false (by simp) (by simp [hnotOpen]), iff_of_true rfl ⟨hnotOpen, _, hread⟩,
        hrestores⟩

mutual

theorem Runs.exact_of_mem
    (hsound : tree.Sound) {call : Call} {calls : List Call} :
    Runs tree call calls → Tracks tree call.start.stack call.start.chain →
      ∀ each ∈ calls, each.Exact tree
  | .skipped _ _, _ | .missing _ _, _ | .refused _ _ _, _ => by simp
  | .flattened hnew hplace hread hfills, htracks => by
      obtain ⟨there, hthere, hfile⟩ := Tree.exists_file?_of_readText hread
      obtain rfl := Except.ok.inj (hplace.symm.trans hthere)
      exact hfills.exact_of_mem hsound (htracks.cons hsound hnew hplace hfile)

theorem Fills.exact_of_mem
    (hsound : tree.Sound) {frame : Frame} {chain : Finset Place} {pieces : List (Piece Nat)}
    {finish : Finish} {calls : List Call} :
    Fills tree frame chain pieces finish calls → Tracks tree frame.stack chain →
      ∀ each ∈ calls, each.Exact tree
  | .nil, _ | .unknown _, _ => by simp
  | .plain hrest, htracks => hrest.exact_of_mem hsound htracks
  | .failed _ hcall _, htracks => by
      rw [List.forall_mem_append, List.forall_mem_singleton]
      exact ⟨hcall.exact_of_mem hsound htracks, hcall.exact hsound htracks⟩
  | .filled _ hcall _ hrest, htracks => by
      rw [List.forall_mem_append, List.forall_mem_cons]
      refine ⟨hcall.exact_of_mem hsound htracks, hcall.exact hsound htracks, ?_⟩
      exact hrest.exact_of_mem hsound (by rwa [hcall.chain_eq])

end

/-! ## There is a run -/

/-- A computation has the outcome and gives the warnings that a call ends with. -/
def Finish.Fits (finish : Finish) (computation : Logged Failure (List Char)) : Prop :=
  ∀ log, Logged.after log computation = (finish.outcome, log ++ finish.warnings)

/-- What fills a mark, if its number is one of an import. -/
def Frame.fillMark
    (frame : Frame) (inline : List Char → Logged Failure (List Char)) (number : Nat) :
    Logged Failure (List Char) :=
  match frame.targets[number]? with
  | none => throw .unknownImport
  | some target => inline target

theorem exists_fills
    {frame : Frame} {inline : List Char → Logged Failure (List Char)}
    (hcalls : ∀ target, ∃ deed finish calls,
      Runs tree ⟨frame.start chain target, deed, finish⟩ calls ∧ finish.Fits (inline target))
    (pieces : List (Piece Nat)) :
    ∃ finish calls, Fills tree frame chain pieces finish calls ∧
      finish.Fits (fill (frame.fillMark inline) pieces) := by
  induction pieces with
  | nil => exact ⟨_, _, .nil, fun log => by simp [fill]⟩
  | cons piece pieces ih =>
      obtain ⟨rest, others, hrest, hfits⟩ := ih
      cases piece with
      | plain text =>
          refine ⟨_, _, .plain hrest, fun log => ?_⟩
          rw [fill, Logged.after_bind_pure, hfits]
          rfl
      | hit found number =>
          cases htarget : frame.targets[number]? with
          | none =>
              refine ⟨_, _, .unknown htarget, fun log => ?_⟩
              rw [fill, Frame.fillMark, htarget, List.append_nil]
              exact Logged.after_bind_of_error (Logged.after_throw log _) _
          | some target =>
              obtain ⟨deed, first, calls, hcall, hfirst⟩ := hcalls target
              cases hend : first.outcome with
              | error failure =>
                  have hfailed (log : List Warning) : Logged.after log (inline target) =
                      (.error failure, log ++ first.warnings) := by rw [hfirst, hend]
                  refine ⟨_, _, .failed htarget hcall hend, fun log => ?_⟩
                  rw [fill, Frame.fillMark, htarget, hend]
                  exact Logged.after_bind_of_error (hfailed log) _
              | ok text =>
                  have hchain : first.chain = chain := hcall.chain_eq
                  have hfilled (log : List Warning) : Logged.after log (inline target) =
                      (.ok text, log ++ first.warnings) := by rw [hfirst, hend]
                  refine ⟨_, _, .filled htarget hcall hend (hchain ▸ hrest), fun log => ?_⟩
                  rw [fill, Frame.fillMark, htarget]
                  dsimp only
                  rw [Logged.after_bind_of_ok (hfilled log), Logged.after_bind_pure, hfits,
                    List.append_assoc]
                  rfl

/-- There are never more calls on the way than files, so that the depth is not used up. -/
theorem exists_runs
    (hsound : tree.Sound) {depth : Nat} (htracks : Tracks tree stack chain)
    (hdepth : tree.entries.length + 2 ≤ depth + stack.length) (path : Path)
    (through : List Char) :
    ∃ deed finish calls, Runs tree ⟨⟨stack, path, through, chain⟩, deed, finish⟩ calls ∧
      finish.Fits (flattenWithin tree depth stack path through) := by
  induction depth generalizing stack chain path through with
  | zero =>
      have hshort := length_le_of_files htracks.nodup htracks.files
      omega
  | succ depth ih =>
      have hskips : (!path.hasNull && stack.contains (tree.resolve path)) = true ↔
          path.hasNull = false ∧ tree.resolve path ∈ chain := by
        simp [htracks.mem_chain_iff]
      by_cases hcycle : path.hasNull = false ∧ tree.resolve path ∈ chain
      · refine ⟨_, _, _, .skipped hcycle.1 hcycle.2, fun log => ?_⟩
        rw [flattenWithin, if_pos (hskips.mpr hcycle)]
        rfl
      · have hnew : path.hasNull = false → tree.resolve path ∉ chain := by simpa using hcycle
        rw [flattenWithin]
        simp only [if_neg (mt hskips.mp hcycle)]
        cases hread : tree.readText path with
        | error problem =>
            by_cases hmissing : problem = .notFound
            · subst hmissing
              have hclean := Tree.hasNull_eq_false_of_readText hread (by simp)
              exact ⟨_, _, _, .missing (hnew hclean) hread, fun log => rfl⟩
            · refine ⟨_, _, _, .refused hnew hread hmissing, fun log => ?_⟩
              rw [List.append_nil]
              cases problem with
              | notFound => contradiction
              | _ => rfl
        | ok sheet =>
            obtain ⟨place, hplace, hfile⟩ := Tree.exists_file?_of_readText hread
            have hmem := hnew (Tree.locate_eq_ok_iff.mp hplace).1
            have hinner := htracks.cons hsound hmem hplace hfile
            have hfewer : tree.entries.length + 2 ≤ depth + (place :: stack).length := by
              rw [List.length_cons]
              omega
            obtain rfl := hsound.resolve_of_locate hplace
            let source := Source.ofSheet (tidyPath through) sheet
            let frame := Start.frame ⟨stack, path, through, chain⟩ (tree.resolve path) source
            have hcalls (target : List Char) : ∃ deed finish calls,
                Runs tree ⟨frame.start (insert (tree.resolve path) chain) target, deed, finish⟩
                  calls ∧
                finish.Fits (flattenWithin tree depth (tree.resolve path :: stack)
                  (path.parent.join (Path.ofText target)) (throughOf frame.through target)) :=
              ih hinner hfewer _ _
            obtain ⟨finish, calls, hfills, hfits⟩ :=
              exists_fills hcalls (cut importMark? source.text)
            exact ⟨_, _, _, .flattened hmem hplace hread hfills, hfits⟩

/-- A sheet is always flattened by just one run of calls.  Each of them is skipped, with the
warning, if and only if what it shall flatten is being flattened at that moment; it opens no file
that was opened on the way to it, and it leaves the chain as it found it. -/
theorem exists_run_of_flatten (hsound : tree.Sound) (path : Path) (through : List Char) :
    ∃ call calls, Runs tree call calls ∧ call.start = ⟨[], path, through, ∅⟩ ∧
      (∀ other others, Runs tree other others → other.start = call.start →
        other = call ∧ others = calls) ∧
      (flatten tree path through).outcome =
        (call.finish.outcome, (calls ++ [call]).flatMap Call.notes) ∧
      ∀ each ∈ calls ++ [call], each.Exact tree := by
  obtain ⟨deed, finish, calls, hruns, hfits⟩ :=
    exists_runs hsound Tracks.empty (Nat.le_add_right _ _) path through
  refine ⟨_, calls, hruns, rfl, ?_, ?_, ?_⟩
  · intro other others hother hstart
    exact hruns.unique hother hstart.symm
  · rw [← hruns.warnings_eq, flatten, Logged.outcome_eq_after, hfits, List.nil_append]
  · rw [List.forall_mem_append, List.forall_mem_singleton]
    exact ⟨hruns.exact_of_mem hsound Tracks.empty, hruns.exact hsound Tracks.empty⟩

/-- Two sheets share an import, and one of them leads back to the first sheet by a detour. -/
theorem exists_run_of_flatten_shared :
    let tree : Tree :=
      ⟨[([['w'], ['a']], .file (some "@import b;@import ./c;A".toList)),
        ([['w'], ['b']], .file (some "@import x//../d;B".toList)),
        ([['w'], ['c']], .file (some "@import d;@import x/../a;C".toList)),
        ([['w'], ['d']], .file (some ['D'])), ([['w'], ['x']], .directory)], [['w']]⟩
    let path : Path := ⟨false, [['a']]⟩
    tree.Sound ∧
      (flatten tree path bundleLevel).outcome.1 = .ok "DBDCA".toList ∧
      (flatten tree path bundleLevel).outcome.2.map Warning.message =
        ["Stylesheet import cycle at x/../a, skipped".toList] ∧
      ∃ call calls, Runs tree call calls ∧ call.start = ⟨[], path, bundleLevel, ∅⟩ ∧
        (∀ other others, Runs tree other others → other.start = call.start →
          other = call ∧ others = calls) ∧
        (flatten tree path bundleLevel).outcome =
          (call.finish.outcome, (calls ++ [call]).flatMap Call.notes) ∧
        ∀ each ∈ calls ++ [call], each.Exact tree := by
  intro tree path
  have hsound : tree.Sound := by decide +kernel
  have houtcome : (flatten tree path bundleLevel).outcome.1 = .ok "DBDCA".toList ∧
      (flatten tree path bundleLevel).outcome.2.map Warning.message =
        ["Stylesheet import cycle at x/../a, skipped".toList] := by
    rw [← toOption_eq_some_iff]
    decide +kernel
  exact ⟨hsound, houtcome.1, houtcome.2, exists_run_of_flatten hsound path bundleLevel⟩

end Stencil.Sheet
