import Stencil.Engine.Render
import Stencil.Proofs.Engine.Cache
import Stencil.Proofs.Except
import Stencil.Proofs.Work

/-!
# Engines with and without a cache

An engine that keeps templates answers every evaluation as one that reads each template anew.  Its
cache follows the use that is made of it: it holds the codes that were used last since it was
cleared, as many as there is room for.
-/

namespace Stencil.Engine

open Stencil.Data Stencil.Host

/-! ## Runs -/

/-- What can be done with an engine between evaluations. -/
inductive Operation where
  | evaluate (code : List Char) (bindings : Variables)
  | useCache (enabled : Data.Value)
  | setTranslator (translator : GlobalEntry World Failure)
  | invalidateCache

namespace Operation

/-- The answer, if the operation is an evaluation, and the engine afterwards. -/
def perform (operation : Operation) (engine : State) :
    List (Except Failure (List Char)) × State :=
  match operation with
  | .evaluate code bindings =>
    let (result, engine) := runOn engine (Engine.evaluate code bindings)
    ([result], engine)
  | .useCache enabled => ([], (runOn engine (Engine.useCache enabled)).2)
  | .setTranslator translator => ([], (runOn engine (Engine.setTranslator translator)).2)
  | .invalidateCache => ([], (runOn engine Engine.invalidateCache).2)

/-- The answers of a whole run, and the engine afterwards. -/
def performAll : List Operation → State → List (Except Failure (List Char)) × State
  | [], engine => ([], engine)
  | operation :: rest, engine =>
    let here := operation.perform engine
    let later := performAll rest here.2
    (here.1 ++ later.1, later.2)

def switchesCache : Operation → Bool
  | .useCache _ => true
  | _ => false

def code? : Operation → Option (List Char)
  | .evaluate code _ => some code
  | _ => none

end Operation

/-- Whether templates are kept, and the codes that were used for kept ones since the cache was last
cleared. -/
structure Usage where
  kept : Bool
  codes : List (List Char)

/-- A code counts as used if templates are kept and it can be read. -/
def Usage.after (usage : Usage) (reads : List Char → Bool) : Operation → Usage
  | .evaluate code _ =>
    if usage.kept && reads code then { usage with codes := usage.codes ++ [code] } else usage
  | .useCache enabled => if enabled.truthy then { usage with kept := true } else ⟨false, []⟩
  | .setTranslator _ => usage
  | .invalidateCache => { usage with codes := [] }

namespace State

def uncached (engine : State) : State :=
  { engine with
    config := { engine.config with cacheEnabled := .bool false }
    templates := [] }

def read (engine : State) (code : List Char) : Except Problem Template :=
  engine.evaluator.template engine.environment code

def reads (engine : State) (code : List Char) : Bool :=
  (engine.read code).isOk

def usage (engine : State) (operations : List Operation) : Usage :=
  operations.foldl (fun usage operation => usage.after engine.reads operation)
    ⟨engine.config.cacheEnabled.truthy, []⟩

end State

/-- What an engine has in common with the one that it began as, and how its cache follows the
use. -/
structure Tracks (start : State) (size : Nat) (usage : Usage) (engine : State) : Prop where
  kept : engine.config.cacheEnabled.truthy = usage.kept
  capacity : engine.config.cacheSize = .int size
  read : engine.read = start.read
  holds : Cache.Holds engine.templates start.read (recent size usage.codes)
  unused : usage.kept = false → usage.codes = []

/-! ## Reading a template -/

section

variable {start engine : State} {size : Nat} {usage : Usage} {code : List Char}

@[simp] theorem runOn_ofExcept {α : Type} (engine : State) (result : Except Failure α) :
    runOn engine (Work.ofExcept result) = (result, engine) := by
  cases result <;> rfl

theorem runOn_templateOf_of_off (hoff : engine.config.cacheEnabled.truthy = false) :
    runOn engine (templateOf code) = ((engine.read code).mapError .host, engine) := by
  rw [templateOf, runOn_bind_of_ok (runOn_get engine)]
  simp [hoff, State.read]

theorem runOn_templateOf_of_found
    (hon : engine.config.cacheEnabled.truthy = true) {template : Template}
    (hfound : Table.get? engine.templates (Cache.keyOf code) = some template) :
    runOn engine (templateOf code) =
      (.ok template, { engine with templates := engine.templates.touch (Cache.keyOf code) }) := by
  rw [templateOf, runOn_bind_of_ok (runOn_get engine)]
  simp only [hon, hfound]
  rfl

theorem runOn_templateOf_of_missing
    (hon : engine.config.cacheEnabled.truthy = true) (hsize : engine.config.cacheSize = .int size)
    (hmissing : Table.get? engine.templates (Cache.keyOf code) = none) :
    runOn engine (templateOf code) =
      ((engine.read code).mapError .host,
        match engine.read code with
        | .error _ => engine
        | .ok template =>
          { engine with
            templates := engine.templates.put (Cache.keyOf code) template size }) := by
  rw [templateOf, runOn_bind_of_ok (runOn_get engine), State.read]
  simp only [hon, hmissing, hsize, Cache.insert_int]
  cases engine.evaluator.template engine.environment code with
  | error problem => rfl
  | ok template => rfl

theorem Tracks.put
    (htracks : Tracks start size usage engine) (hkept : usage.kept = true)
    (hkey : KeyTells code usage.codes) {template : Template}
    (hread : start.read code = .ok template) (bindings : Variables) :
    Tracks start size (usage.after start.reads (.evaluate code bindings))
      { engine with
        templates := engine.templates.put (Cache.keyOf code) template size } := by
  have hreads : start.reads code = true := by
    rw [State.reads, hread]
    rfl
  have hafter : usage.after start.reads (.evaluate code bindings) =
      { usage with codes := usage.codes ++ [code] } := by
    simp [Usage.after, hkept, hreads]
  rw [hafter]
  exact
    { kept := htracks.kept
      capacity := htracks.capacity
      read := htracks.read
      holds := htracks.holds.put hkey hread
      unused := fun hoff => by
        rw [hkept] at hoff
        contradiction }

/-- Whether or not a template was kept, it is what the code is read to. -/
theorem Tracks.exists_runOn_templateOf
    (htracks : Tracks start size usage engine) (hkey : KeyTells code usage.codes)
    (bindings : Variables) :
    ∃ templates : Cache,
      runOn engine (templateOf code) =
          ((start.read code).mapError .host, { engine with templates }) ∧
        Tracks start size (usage.after start.reads (.evaluate code bindings))
          { engine with templates } := by
  have htemplate := congrFun htracks.read code
  cases hkept : usage.kept with
  | false =>
      have hafter : usage.after start.reads (.evaluate code bindings) = usage := by
        simp [Usage.after, hkept]
      refine ⟨engine.templates, ?_, by rw [hafter]; exact htracks⟩
      rw [runOn_templateOf_of_off (htracks.kept.trans hkept), htemplate]
  | true =>
      have hon := htracks.kept.trans hkept
      cases hfound : Table.get? engine.templates (Cache.keyOf code) with
      | some template =>
          have hrecent : KeyTells code (recent size usage.codes) :=
            fun other hother => hkey other (subset_recent _ _ hother)
          have hread := htracks.holds.template_eq hrecent hfound
          have hlength : engine.templates.length ≤ size := by
            rw [htracks.holds.length_eq, length_recent]
            exact min_le_left _ _
          refine ⟨_, ?_, htracks.put hkept hkey hread bindings⟩
          rw [runOn_templateOf_of_found hon hfound, Cache.touch_eq_put hlength hfound, hread]
          rfl
      | none =>
          have hrun := runOn_templateOf_of_missing hon htracks.capacity hfound
          rw [htemplate] at hrun
          cases hread : start.read code with
          | error problem =>
              have hreads : start.reads code = false := by
                rw [State.reads, hread]
                rfl
              have hafter : usage.after start.reads (.evaluate code bindings) = usage := by
                simp [Usage.after, hreads]
              rw [hread] at hrun
              exact ⟨engine.templates, hrun, by rw [hafter]; exact htracks⟩
          | ok template =>
              rw [hread] at hrun
              exact ⟨_, hrun, htracks.put hkept hkey hread bindings⟩

/-! ## One operation -/

def State.outcome (engine : State) (template : Template) (bindings : Variables) :
    Except Failure (List Char) × State :=
  let (result, world) := engine.evaluator.render engine.environment template
    (hostVariables bindings) ⟨engine.place, engine.warnings, engine.context.layout.selected⟩
  (result.mapError ofHalt, { engine with place := world.place, warnings := world.warnings })

theorem runOn_evaluate_of_ok
    {template : Template} {later : State}
    (hread : runOn engine (templateOf code) = (.ok template, later)) (bindings : Variables) :
    runOn engine (evaluate code bindings) = later.outcome template bindings := by
  rw [evaluate, runOn_bind_of_ok hread, runOn_bind_of_ok (runOn_get later)]
  exact (runOn_bind_of_ok (runOn_set later _) _).trans (runOn_ofExcept _ _)

/-- Running a template does not look at the cache, and leaves it alone. -/
theorem Tracks.outcome
    (htracks : Tracks start size usage engine) (template : Template) (bindings : Variables) :
    Tracks start size usage (engine.outcome template bindings).2 :=
  ⟨htracks.kept, htracks.capacity, htracks.read, htracks.holds, htracks.unused⟩

theorem Tracks.perform_evaluate
    (htracks : Tracks start size usage engine) (hkey : KeyTells code usage.codes)
    (bindings : Variables) :
    ∃ answer later,
      (Operation.evaluate code bindings).perform engine = ([answer], later) ∧
        (Operation.evaluate code bindings).perform engine.uncached = ([answer], later.uncached) ∧
        Tracks start size (usage.after start.reads (.evaluate code bindings)) later := by
  obtain ⟨templates, hrun, hlater⟩ := htracks.exists_runOn_templateOf hkey bindings
  have hplain : runOn engine.uncached (templateOf code) =
      ((start.read code).mapError .host, engine.uncached) := by
    rw [← htracks.read]
    exact runOn_templateOf_of_off rfl
  rw [Operation.perform, Operation.perform]
  cases hread : start.read code with
  | error problem =>
      rw [hread] at hrun hplain
      rw [evaluate, runOn_bind_of_error hrun, runOn_bind_of_error hplain]
      exact ⟨_, _, rfl, rfl, hlater⟩
  | ok template =>
      rw [hread] at hrun hplain
      rw [runOn_evaluate_of_ok hrun, runOn_evaluate_of_ok hplain]
      exact ⟨_, _, rfl, rfl, hlater.outcome template bindings⟩

theorem Tracks.perform_useCache
    (htracks : Tracks start size usage engine) (enabled : Data.Value) :
    ∃ later,
      (Operation.useCache enabled).perform engine = ([], later) ∧
        later.uncached = engine.uncached ∧
        Tracks start size (usage.after start.reads (.useCache enabled)) later := by
  have hrun : runOn engine (Engine.useCache enabled) =
      runOn { engine with config := { engine.config with cacheEnabled := enabled } }
        (if !enabled.truthy then invalidateCache else pure ⟨⟩) :=
    runOn_bind_of_ok (runOn_modify engine _) _
  rw [Operation.perform, hrun, Usage.after]
  cases htruthy : enabled.truthy with
  | true =>
      refine ⟨_, rfl, rfl, htruthy, htracks.capacity, htracks.read, htracks.holds, ?_⟩
      intro hoff
      contradiction
  | false =>
      exact ⟨_, rfl, rfl, htruthy, htracks.capacity, htracks.read, Cache.holds_nil _, fun _ => rfl⟩

/-- No operation tells an engine that keeps templates from one that does not. -/
theorem Tracks.perform
    (htracks : Tracks start size usage engine) (operation : Operation)
    (hkey : ∀ code ∈ operation.code?, KeyTells code usage.codes) :
    ∃ answers later,
      operation.perform engine = (answers, later) ∧
        Operation.performAll ([operation].filter (!·.switchesCache)) engine.uncached =
          (answers, later.uncached) ∧
        Tracks start size (usage.after start.reads operation) later := by
  cases operation with
  | evaluate code bindings =>
      obtain ⟨answer, later, hcached, hplain, hlater⟩ :=
        htracks.perform_evaluate (hkey code rfl) bindings
      refine ⟨[answer], later, hcached, ?_, hlater⟩
      rw [List.filter_cons_of_pos rfl, List.filter_nil, Operation.performAll, hplain]
      rfl
  | useCache enabled =>
      obtain ⟨later, hcached, hplain, hlater⟩ := htracks.perform_useCache enabled
      refine ⟨[], later, hcached, ?_, hlater⟩
      rw [hplain]
      rfl
  | setTranslator translator =>
      refine ⟨[], _, rfl, rfl, htracks.kept, htracks.capacity, ?_, htracks.holds, htracks.unused⟩
      cases translator <;> exact htracks.read
  | invalidateCache =>
      exact ⟨[], _, rfl, rfl, htracks.kept, htracks.capacity, htracks.read,
        Cache.holds_nil _, fun _ => rfl⟩

/-! ## Whole runs -/

namespace Operation

theorem performAll_append (front back : List Operation) (engine : State) :
    performAll (front ++ back) engine =
      ((performAll front engine).1 ++ (performAll back (performAll front engine).2).1,
        (performAll back (performAll front engine).2).2) := by
  induction front generalizing engine with
  | nil => rfl
  | cons operation rest ih =>
      rw [List.cons_append, performAll, performAll, ih, List.append_assoc]

end Operation

theorem Usage.codes_after_subset (usage : Usage) (reads : List Char → Bool)
    (operation : Operation) :
    (usage.after reads operation).codes ⊆ usage.codes ++ operation.code?.toList := by
  cases operation with
  | evaluate code bindings =>
      rw [Usage.after]
      split
      · exact List.Subset.refl _
      · exact List.subset_append_left _ _
  | useCache enabled =>
      rw [Usage.after]
      split
      · exact List.subset_append_left _ _
      · exact List.nil_subset _
  | setTranslator translator => exact List.subset_append_left _ _
  | invalidateCache => exact List.nil_subset _

theorem Tracks.performAll
    (htracks : Tracks start size usage engine) (operations : List Operation)
    (hkeys : ∀ code ∈ operations.filterMap (·.code?),
      KeyTells code (usage.codes ++ operations.filterMap (·.code?))) :
    ∃ answers later,
      Operation.performAll operations engine = (answers, later) ∧
        Operation.performAll (operations.filter (!·.switchesCache)) engine.uncached =
          (answers, later.uncached) ∧
        Tracks start size (operations.foldl (·.after start.reads ·) usage) later := by
  induction operations generalizing usage engine with
  | nil => exact ⟨[], engine, rfl, rfl, htracks⟩
  | cons operation rest ih =>
      have hcodes : (operation :: rest).filterMap (·.code?) =
          operation.code?.toList ++ rest.filterMap (·.code?) := by
        cases hcode : operation.code? with
        | none => rw [List.filterMap_cons_none hcode, Option.toList_none, List.nil_append]
        | some code => rw [List.filterMap_cons_some hcode]; rfl
      rw [hcodes] at hkeys
      have hkey : ∀ code ∈ operation.code?, KeyTells code usage.codes := by
        intro code hcode other hother
        refine hkeys code ?_ other (List.mem_append_left _ hother)
        rw [Option.mem_def.mp hcode]
        exact List.mem_append_left _ (List.mem_singleton_self code)
      obtain ⟨answers, middle, hcached, hplain, hmiddle⟩ := htracks.perform operation hkey
      have hlaterKeys : ∀ code ∈ rest.filterMap (·.code?),
          KeyTells code ((usage.after start.reads operation).codes ++
            rest.filterMap (·.code?)) := by
        intro code hcode other hother
        refine hkeys code (List.mem_append_right _ hcode) other ?_
        rw [← List.append_assoc]
        rcases List.mem_append.mp hother with hused | hnext
        · exact List.mem_append_left _ (usage.codes_after_subset start.reads operation hused)
        · exact List.mem_append_right _ hnext
      obtain ⟨others, later, hrest, hplainRest, hlater⟩ := ih hmiddle hlaterKeys
      refine ⟨answers ++ others, later, ?_, ?_, hlater⟩
      · rw [Operation.performAll, hcached, hrest]
      · rw [← List.singleton_append, List.filter_append, Operation.performAll_append, hplain,
          hplainRest]

end

def Parts.uncached (parts : Parts) : Parts :=
  { parts with config := { parts.config with cacheEnabled := .bool false } }

theorem State.ofParts_eq_ok_iff {parts : Parts} {engine : State} :
    State.ofParts parts = .ok engine ↔
      ∃ views, textOption parts.config.viewsDirectory = .ok views ∧
      ∃ layouts, textOptionOrNone parts.config.layoutsDirectory = .ok layouts ∧
      ∃ modules, textOptionOrNone parts.config.modulesDirectory = .ok modules ∧
      ∃ viewSuffix, textOption parts.config.viewSuffix = .ok viewSuffix ∧
      ∃ layoutSuffix, textOption parts.config.layoutSuffix = .ok layoutSuffix ∧
        ⟨parts.config,
          { Layout.Places.ofBase views layouts (modules.getD []) viewSuffix layoutSuffix with
            lookup := parts.lookup },
          .empty, [(blockRenderer, .blocks)], [], parts.evaluator, parts.environment, [],
          ⟨parts.tree, .fresh parts.config.cacheSheets.truthy "cache".toList⟩, []⟩ = engine := by
  simp only [State.ofParts, bind_eq_ok_iff, pure, Except.pure, Except.ok.injEq]

theorem State.ofParts_uncached
    {parts : Parts} {engine : State} (hengine : State.ofParts parts = .ok engine) :
    State.ofParts parts.uncached = .ok engine.uncached := by
  obtain ⟨views, hviews, layouts, hlayouts, modules, hmodules, viewSuffix, hviewSuffix,
    layoutSuffix, hlayoutSuffix, rfl⟩ := State.ofParts_eq_ok_iff.mp hengine
  exact State.ofParts_eq_ok_iff.mpr ⟨views, hviews, layouts, hlayouts, modules, hmodules,
    viewSuffix, hviewSuffix, layoutSuffix, hlayoutSuffix, rfl⟩

theorem State.tracks_ofParts
    {parts : Parts} {engine : State} {size : Nat} (hengine : State.ofParts parts = .ok engine)
    (hsize : parts.config.cacheSize = .int size) :
    Tracks engine size ⟨engine.config.cacheEnabled.truthy, []⟩ engine := by
  obtain ⟨_, _, _, _, _, _, _, _, _, _, rfl⟩ := State.ofParts_eq_ok_iff.mp hengine
  exact ⟨rfl, hsize, rfl, Cache.holds_nil _, fun _ => rfl⟩

/-- An engine that may keep templates answers as one that never does, and is otherwise left as that
one.  It has kept the templates of the codes that were used last. -/
theorem performAll_of_cache
    {parts : Parts} {engine : State} {size : Nat}
    (hengine : State.ofParts parts = .ok engine) (hsize : parts.config.cacheSize = .int size)
    (operations : List Operation)
    (hkeys : ∀ code ∈ operations.filterMap (·.code?),
      KeyTells code (operations.filterMap (·.code?))) :
    ∃ plain answers later,
      State.ofParts parts.uncached = .ok plain ∧
        Operation.performAll operations engine = (answers, later) ∧
        Operation.performAll (operations.filter (!·.switchesCache)) plain =
          (answers, later.uncached) ∧
        later.templates.length = min size (engine.usage operations).codes.dedup.length ∧
        later.templates.Holds engine.read (recent size (engine.usage operations).codes) := by
  obtain ⟨answers, later, hcached, hplain, hlater⟩ :=
    (State.tracks_ofParts hengine hsize).performAll operations hkeys
  refine ⟨engine.uncached, answers, later, State.ofParts_uncached hengine, hcached, hplain, ?_,
    hlater.holds⟩
  rw [hlater.holds.length_eq, length_recent]
  rfl

/-- There is room for one template, and the third code cannot be read. -/
theorem performAll_of_cache_evicting :
    let parts : Parts := { config := { cacheSize := .int 1 }, tree := .empty }
    let operations : List Operation :=
      [.evaluate ['a'] [], .evaluate ['b'] [], .evaluate ['<', '?', '='] []]
    (∀ code ∈ operations.filterMap (·.code?), KeyTells code (operations.filterMap (·.code?))) ∧
      ∃ engine plain answers later,
        State.ofParts parts = .ok engine ∧ State.ofParts parts.uncached = .ok plain ∧
          Operation.performAll operations engine = (answers, later) ∧
          Operation.performAll operations plain = (answers, later.uncached) ∧
          later.templates.length = 1 ∧ later.templates.Holds engine.read [['b']] := by
  intro parts operations
  have hkeys : ∀ code ∈ operations.filterMap (·.code?),
      KeyTells code (operations.filterMap (·.code?)) := by
    unfold KeyTells
    decide +kernel
  obtain ⟨engine, hengine⟩ : ∃ engine, State.ofParts parts = .ok engine := ⟨_, rfl⟩
  obtain ⟨plain, answers, later, hplain, hcached, hrun, hlength, hholds⟩ :=
    performAll_of_cache hengine rfl operations hkeys
  have hcodes : (engine.usage operations).codes = [['a'], ['b']] := by
    have hnew : engine.read = parts.environment.template ∧ engine.config = parts.config := by
      obtain ⟨_, _, _, _, _, _, _, _, _, _, rfl⟩ := State.ofParts_eq_ok_iff.mp hengine
      exact ⟨rfl, rfl⟩
    have hfirst : engine.reads ['a'] = true := by
      rw [State.reads, hnew.1]
      decide +kernel
    have hsecond : engine.reads ['b'] = true := by
      rw [State.reads, hnew.1]
      decide +kernel
    have hthird : engine.reads ['<', '?', '='] = false := by
      rw [State.reads, hnew.1]
      decide +kernel
    have hkept : engine.config.cacheEnabled.truthy = true := by
      rw [hnew.2]
      rfl
    simp [State.usage, operations, Usage.after, hfirst, hsecond, hthird, hkept]
  rw [hcodes] at hlength hholds
  exact ⟨hkeys, engine, plain, answers, later, hengine, hplain, hcached, hrun, hlength, hholds⟩

end Stencil.Engine
