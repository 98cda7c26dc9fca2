import Stencil.Host.Evaluator
import Stencil.Proofs.Directive.Opener

/-!
# Sources without tags

An evaluator may be expected to leave a source alone in which no opener of a host tag stands.  The
standard one does: such a source is data from its beginning to its end, which every environment
reads, and running it prints it and does nothing else.
-/

namespace Stencil.Host

open Stencil.Text Stencil.Directive

/-! ## Reading -/

theorem Token.opening?_eq_none {text : List Char} (hopens : opensHostTag text = false) :
    Token.opening? text = none := by
  unfold Token.opening?
  split
  next => simp [opensHostTag, hostOpeners] at hopens
  next => simp [opensHostTag, hostOpeners] at hopens
  next => simp [opensHostTag, hostOpeners] at hopens
  next => rfl

/-- Outside of tags the reader holds everything that it reads until a tag opens. -/
theorem Token.readFrom_outside_of_openerCount
    {text : List Char} (hcount : openerCount text = 0) (before : Char) (held : List Char) :
    Token.readFrom .outside before held text = some (dataToken (held.reverse ++ text)) := by
  induction text generalizing before held with
  | nil => rw [Token.readFrom, List.append_nil]
  | cons c rest ih =>
      have hnone := Token.opening?_eq_none
        (openerCount_eq_zero_iff.mp hcount (c :: rest) List.suffix_rfl)
      have hrest : openerCount rest = 0 := by
        rw [openerCount] at hcount
        omega
      rw [Token.readFrom]
      simp only [hnone, ih hrest, List.reverse_cons, List.append_assoc, List.singleton_append]

/-- The nodes of data, of which an empty text has none. -/
def dataNodes (text : List Char) : List Node :=
  if text.isEmpty then [] else [.data text]

theorem Grammar.template?_dataToken (text : List Char) :
    Grammar.template? (Token.dataToken text) = some (dataNodes text) := by
  unfold Token.dataToken dataNodes
  split
  next => rfl
  next => rfl

namespace Environment

variable {σ ε : Type}

theorem template_of_openerCount
    (environment : Environment σ ε) {source : List Char} (hcount : openerCount source = 0)
    (hreturn : '\r' ∉ source) : environment.template source = .ok ⟨dataNodes source⟩ := by
  have htokens : Token.ofSource? source = some (Token.dataToken source) := by
    rw [Token.ofSource?, unifyNewlines_eq_self hreturn,
      Token.readFrom_outside_of_openerCount hcount]
    rfl
  have hsound : allSound (Table.keys environment.filters) environment.tests false
      (dataNodes source) = true := by
    unfold dataNodes
    split <;> rfl
  rw [template, readTemplate, htokens, Option.bind_some, Grammar.template?_dataToken]
  simp only [hsound, if_true]

/-! ## Running -/

theorem render_dataNodes
    (environment : Environment σ ε) (source : List Char) (bindings : List (List Char × Value))
    (world : σ) : environment.render ⟨dataNodes source⟩ bindings world = (.ok source, world) := by
  unfold dataNodes
  split
  next hempty =>
    rw [List.isEmpty_iff] at hempty
    subst source
    rfl
  next =>
    have hprinted : environment.render ⟨[.data source]⟩ bindings world =
        (.ok [source].flatten, world) := rfl
    rw [hprinted, List.flatten_singleton]

end Environment

/-! ## Evaluators -/

/-- A source without openers is rendered as it is, and nothing else happens. -/
def Evaluator.KeepsPlain {σ ε : Type} (evaluator : Evaluator σ ε) : Prop :=
  ∀ environment source, openerCount source = 0 → '\r' ∉ source →
    ∃ template, evaluator.template environment source = .ok template ∧
      ∀ bindings world, evaluator.render environment template bindings world = (.ok source, world)

theorem Evaluator.keepsPlain_standard {σ ε : Type} :
    (Evaluator.standard : Evaluator σ ε).KeepsPlain := fun environment source hcount hreturn =>
  ⟨_, environment.template_of_openerCount hcount hreturn, environment.render_dataNodes source⟩

end Stencil.Host
