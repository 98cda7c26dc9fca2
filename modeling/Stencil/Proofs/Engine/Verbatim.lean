import Stencil.Proofs.Directive.Descent
import Stencil.Proofs.Directive.Partition
import Stencil.Proofs.Engine.Run
import Stencil.Proofs.Host.Untagged
import Stencil.Proofs.ServerCode.Removal

/-!
# Text without directives

A text of which no token is a known directive passes through a new engine as it is, but for the
server code that is removed from it first.  Each stage leaves it alone for a reason of its own:
there are no blocks to resolve, every token is its own image, and clean text opens no tag of host
code.
-/

namespace Stencil

namespace Directive

/-- Every token of the text is plain text or a span that is no known directive. -/
def IsVerbatim (text : List Char) : Prop :=
  ∃ found, tokens text = .ok found ∧
    ∀ token ∈ found, token.meaning = .text ∨ token.meaning = .unknown

theorem derives_of_leaves {found : List Token} (hfound : ∀ token ∈ found, token.isControl = false) :
    Derives .document found := by
  induction found with
  | nil => exact .empty
  | cons token rest ih =>
      obtain ⟨htoken, hrest⟩ := List.forall_mem_cons.mp hfound
      exact .leaf htoken (ih hrest)

theorem hostCode_of_verbatim {text : List Char} (htext : IsVerbatim text)
    (translator : List Char) : hostCode translator text = .ok text := by
  obtain ⟨found, hfound, hverbatim⟩ := htext
  have hleaf (token : Token) (hmem : token ∈ found) : token.isControl = false := by
    rcases hverbatim token hmem with hmeaning | hmeaning <;> simp [Token.isControl, hmeaning]
  have hkept (token : Token) (hmem : token ∈ found) :
      token.rewritten translator = token.text := by
    rcases hverbatim token hmem with hmeaning | hmeaning <;>
      simp [Token.rewritten, Token.tag?, hmeaning]
  have htext : text = found.flatMap (Token.rewritten translator) := by
    rw [List.flatMap_congr hkept, (scanned_of_tokensFrom hfound).flatMap_text]
  refine hostCode_eq_ok_iff.mpr ⟨found, hfound, derives_of_leaves hleaf, ?_, htext⟩
  intro token hmem hcontrol
  rw [hleaf token hmem] at hcontrol
  contradiction

end Directive

theorem Block.Resolver.resolve_of_verbatim
    {text : List Char} (htext : Directive.IsVerbatim text) (resolver : Block.Resolver) :
    resolver.resolve text = pure text := by
  obtain ⟨found, hfound, hverbatim⟩ := htext
  have hnone : found.any Directive.Token.isBlockTag = false := by
    rw [List.any_eq_false]
    intro token htoken
    rcases hverbatim token htoken with hmeaning | hmeaning <;>
      simp [Directive.Token.isBlockTag, hmeaning]
  simp only [resolve, resolveBy, hfound, hnone]
  rfl

namespace Engine

open Stencil.Data Stencil.Directive

/-! ## The stages of an engine -/

variable {engine : State} {text : List Char}

theorem runOn_resolveBlocks_of_verbatim
    (htext : Directive.IsVerbatim text) (bindings : Variables) :
    runOn engine (resolveBlocks text [variablesData bindings]) = (.ok text, engine) := by
  rw [resolveBlocks, runOn_bind_of_ok (runOn_get engine)]
  simp only [variablesData, pure_bind, Block.Resolver.resolve_of_verbatim htext]
  rfl

theorem runOn_renderWith_blocks
    (hblocks : engine.renderers.get blockRenderer = .ok .blocks) (code : List Char)
    (arguments : List Value) :
    runOn engine (renderWith blockRenderer code arguments) =
      runOn engine (resolveBlocks code arguments) := by
  rw [renderWith, runOn_bind_of_ok (runOn_get engine)]
  simp only [hblocks]

/-- The engine after the removal of server code from a text. -/
def State.cleaned (engine : State) (text : List Char) : State :=
  { engine with
    warnings := engine.warnings ++
      if ServerCode.segments text = [] then [] else [.removedServerCode (ServerCode.strip text).2] }

theorem runOn_compile_of_verbatim
    (hblocks : engine.renderers.get blockRenderer = .ok .blocks)
    (htext : Directive.IsVerbatim (ServerCode.clean text)) (bindings : Variables) :
    runOn engine (compile text (variablesData bindings) true) =
      (.ok (ServerCode.clean text), engine.cleaned text) := by
  have hclean : runOn engine (escapeServerCode text) =
      (.ok (ServerCode.clean text), engine.cleaned text) :=
    ServerCode.run_escapeServerCode text engine
  have hresolved : runOn (engine.cleaned text)
      (renderWith blockRenderer (ServerCode.clean text) [variablesData bindings]) =
        (.ok (ServerCode.clean text), engine.cleaned text) := by
    have hkept : (engine.cleaned text).renderers.get blockRenderer = .ok .blocks := hblocks
    rw [runOn_renderWith_blocks hkept, runOn_resolveBlocks_of_verbatim htext]
  rw [compile, if_pos rfl, runOn_bind_of_ok hclean, runOn_bind_of_ok hresolved,
    Directive.hostCode_of_verbatim htext]
  rfl

theorem exists_runOn_evaluate_of_openerCount
    (hplain : engine.evaluator.KeepsPlain) (hcapacity : ∃ size : Nat,
      engine.config.cacheSize = .int size)
    (hcache : engine.templates = []) (hcount : Directive.openerCount text = 0)
    (hreturn : '\r' ∉ text) (bindings : Variables) :
    ∃ templates, runOn engine (evaluate text bindings) =
      (.ok text, { engine with templates := templates }) := by
  obtain ⟨template, htemplate, hrender⟩ := hplain engine.environment text hcount hreturn
  obtain ⟨templates, hread⟩ : ∃ templates, runOn engine (templateOf text) =
      (.ok template, { engine with templates := templates }) := by
    cases hon : engine.config.cacheEnabled.truthy with
    | false =>
        refine ⟨engine.templates, ?_⟩
        rw [runOn_templateOf_of_off hon, State.read, htemplate]
        rfl
    | true =>
        obtain ⟨size, hsize⟩ := hcapacity
        have hmissing : Table.get? engine.templates (Cache.keyOf text) = none := by
          rw [hcache]
          rfl
        rw [runOn_templateOf_of_missing hon hsize hmissing, State.read, htemplate]
        exact ⟨_, rfl⟩
  refine ⟨templates, ?_⟩
  rw [runOn_evaluate_of_ok hread, State.outcome, hrender]
  rfl

theorem runOn_finish
    (hminify : engine.config.minifyOutput.truthy = false)
    (hprune : engine.config.removeUnusedRules.truthy = false) (output : List Char) :
    runOn engine (finish output []) = (.ok output, engine) := by
  rw [finish, runOn_bind_of_ok (runOn_get engine)]
  simp only [hminify, Bool.false_eq_true, if_false, List.foldlM_nil, pure_bind]
  rw [runOn_bind_of_ok (runOn_get engine)]
  simp only [hprune, Bool.false_eq_true, if_false]
  rfl

/-- Nothing but the settings of the engine and its empty cache is needed. -/
theorem exists_runOn_renderCode_of_verbatim
    (hplain : engine.evaluator.KeepsPlain)
    (hblocks : engine.renderers.get blockRenderer = .ok .blocks)
    (hcapacity : ∃ size : Nat, engine.config.cacheSize = .int size)
    (hescape : engine.config.escape.truthy = true)
    (hminify : engine.config.minifyOutput.truthy = false)
    (hprune : engine.config.removeUnusedRules.truthy = false) (hcache : engine.templates = [])
    (hreturn : '\r' ∉ text) (htext : Directive.IsVerbatim (ServerCode.clean text))
    (bindings : Option Variables) :
    ∃ templates, runOn engine (renderCode text bindings none []) =
      (.ok (ServerCode.clean text), { engine.cleaned text with templates := templates }) := by
  have hclean : '\r' ∉ ServerCode.clean text := fun hmem =>
    hreturn ((ServerCode.clean_sublist text).subset hmem)
  have hkept : (engine.cleaned text).templates = [] := hcache
  have hkeptPlain : (engine.cleaned text).evaluator.KeepsPlain := hplain
  obtain ⟨templates, hevaluate⟩ := exists_runOn_evaluate_of_openerCount hkeptPlain hcapacity hkept
    (ServerCode.openerCount_clean text) hclean (bindings.getD engine.context.view.bindings)
  refine ⟨templates, ?_⟩
  rw [renderCode, runOn_bind_of_ok (runOn_get engine), Option.getD_none, hescape,
    runOn_bind_of_ok (runOn_compile_of_verbatim hblocks htext _), runOn_bind_of_ok hevaluate]
  have hlater : { engine.cleaned text with templates := templates }.config = engine.config := rfl
  rw [← hlater] at hminify hprune
  exact runOn_finish hminify hprune _

/-- A text of which all tokens are plain or unknown comes out of a new engine without its server
code, and otherwise as it is.  Rendering it changes nothing but the warnings and the templates that
are kept. -/
theorem renderCode_of_verbatim
    (translator : GlobalEntry World Failure) (globals : List (List Char × Host.Value))
    (filters : List (List Char × Host.Action World Failure))
    {evaluator : Host.Evaluator World Failure} (hplain : evaluator.KeepsPlain)
    (lookup : Layout.Lookup) (tree : Files.Tree) (bindings : Option Variables) {text : List Char}
    (hreturn : '\r' ∉ text) (htext : Directive.IsVerbatim (ServerCode.clean text)) :
    ∃ engine templates,
      State.ofParts { config := {}, translator, globals, filters, evaluator, lookup, tree } =
          .ok engine ∧
        runOn engine (renderCode text bindings none []) =
          (.ok (ServerCode.clean text), { engine.cleaned text with templates := templates }) ∧
        (ServerCode.clean text = text ↔ ServerCode.segments text = []) := by
  obtain ⟨engine, hengine⟩ : ∃ engine,
      State.ofParts { config := {}, translator, globals, filters, evaluator, lookup, tree } =
        .ok engine := ⟨_, rfl⟩
  obtain ⟨_, _, _, _, _, _, _, _, _, _, hnew⟩ := State.ofParts_eq_ok_iff.mp hengine
  have hrun : ∃ templates, runOn engine (renderCode text bindings none []) =
      (.ok (ServerCode.clean text), { engine.cleaned text with templates := templates }) := by
    subst hnew
    exact exists_runOn_renderCode_of_verbatim hplain rfl ⟨256, rfl⟩ rfl rfl rfl rfl hreturn htext
      bindings
  obtain ⟨templates, hrun⟩ := hrun
  exact ⟨engine, templates, hengine, hrun, ServerCode.clean_eq_self_iff⟩

/-- An opening mark that another one makes plain, an unknown directive, and server code between two
quotes. -/
theorem renderCode_of_verbatim_stray :
    let text := openMark ++ ' ' :: marked " while $x " ++ "'<?php echo 1 ?>'".toList
    '\r' ∉ text ∧ Directive.IsVerbatim (ServerCode.clean text) ∧
      ∃ engine templates,
        State.ofParts { config := {}, tree := .empty } = .ok engine ∧
          runOn engine (renderCode text (some []) none []) =
            (.ok (openMark ++ ' ' :: marked " while $x " ++ "''".toList),
              { engine.cleaned text with templates := templates }) := by
  intro text
  have hreturn : '\r' ∉ text := by decide +kernel
  have hclean : ServerCode.clean text =
      openMark ++ ' ' :: marked " while $x " ++ "''".toList := by
    decide +kernel
  have htext : Directive.IsVerbatim (ServerCode.clean text) := by
    rw [hclean]
    exact ⟨[⟨0, openMark ++ [' '], .text⟩, ⟨3, marked " while $x ", .unknown⟩,
      ⟨17, "''".toList, .text⟩], by decide +kernel, by decide +kernel⟩
  obtain ⟨engine, templates, hengine, hrun, -⟩ :=
    renderCode_of_verbatim (.action untranslated) [] [] Host.Evaluator.keepsPlain_standard
      Layout.source? .empty (some []) hreturn htext
  rw [hclean] at hrun
  exact ⟨hreturn, htext, engine, templates, hengine, hrun⟩

end Engine

end Stencil
