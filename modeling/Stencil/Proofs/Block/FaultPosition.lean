import Stencil.Proofs.Block.Nesting
import Stencil.Proofs.Directive.FaultPosition

/-!
# Where the faults of blocks point

A fault of resolving blocks is a fault at a tag, or it names the opening tag of a block that has no
handler.  So the faults of compiling a template and of resolving its blocks all point at their
source.
-/

namespace Stencil.Block

open Stencil.Directive

variable {text : List Char} {token : Token} {fault : TemplateFault}

/-- A fault at the token, or the fault of an opening tag that has no handler. -/
def IsFaultAt (token : Token) (fault : TemplateFault) : Prop :=
  (∃ defect, fault = token.fault defect) ∨
    ∃ name attributes, token.meaning = .blockOpen name attributes ∧
      fault = .unknownBlock name (some (token.start : Int))

theorem IsFaultAt.pointsAt {found : List Token}
    (hat : IsFaultAt token fault) (htext : Directive.tokens text = .ok found)
    (hmem : token ∈ found) : PointsAt text fault := by
  rcases hat with ⟨defect, rfl⟩ | ⟨name, attributes, hmeaning, rfl⟩
  · exact pointsAt_fault_of_mem htext hmem defect
  · exact ⟨found, token, attributes, htext, hmem, hmeaning, rfl, text_isPrefix_of_mem htext hmem⟩

/-- Handlers have failures of their own; the only fault of a pair is that it has no handler. -/
theorem eq_unknownBlock_of_apply
    {resolver : Resolver} {opening : Opening} {inner : List Char} {closer : Token}
    {log later : List Warning}
    (happly : Logged.after log (resolver.apply opening inner closer) =
      (.error (.fault fault), later)) :
    fault = .unknownBlock opening.name (some (opening.token.start : Int)) := by
  unfold Resolver.apply at happly
  split at happly
  next =>
    split at happly
    next => cases happly
    next => cases happly
    next => cases happly
  next =>
    split at happly
    next =>
      cases happly
      rfl
    next => cases happly

/-- The frames were opened by opening tags of blocks. -/
def AllOpened (frames : List Frame) : Prop :=
  ∀ frame ∈ frames, frame.opening.token.meaning =
    .blockOpen frame.opening.name frame.opening.attributes

/-- A fault of the tokens that follow is a fault at one of them or at what is open before them. -/
theorem exists_mem_of_resolveFrom
    {resolver : Resolver} {frames : List Frame} {written : List (List Char)} {rest : List Token}
    {log later : List Warning} (hframes : AllOpened frames)
    (hfault : Logged.after log (resolveFrom resolver.apply frames written rest) =
      (.error (.fault fault), later)) :
    ∃ token, IsFaultAt token fault ∧
      (token ∈ rest ∨ token ∈ frames.map fun frame => frame.opening.token) := by
  induction frames, rest using frame_induction generalizing written log with
  | finished => cases hfault
  | unclosed frame outer =>
      cases hfault
      exact ⟨frame.opening.token, .inl ⟨.unclosedBlock, rfl⟩, .inr List.mem_cons_self⟩
  | leaf frames first rest hleaf ih =>
      rw [resolveFrom_leaf resolver.apply frames written rest hleaf] at hfault
      obtain ⟨token, hat, hmem⟩ := ih hframes hfault
      exact ⟨token, hat, hmem.imp_left (List.mem_cons_of_mem first)⟩
  | opening frames first rest name attributes hmeaning ih =>
      rw [resolveFrom_open resolver.apply frames written rest hmeaning] at hfault
      obtain ⟨token, hat, hmem | hopen⟩ :=
        ih _ (List.forall_mem_cons.mpr ⟨hmeaning, hframes⟩) hfault
      · exact ⟨token, hat, .inl (List.mem_cons_of_mem first hmem)⟩
      · refine ⟨token, hat, ?_⟩
        rcases List.mem_cons.mp hopen with rfl | houter
        · exact .inl List.mem_cons_self
        · exact .inr houter
  | closing frame outer first rest hmeaning ih =>
      rw [resolveFrom_close resolver.apply outer written rest frame hmeaning] at hfault
      obtain ⟨hframe, houter⟩ := List.forall_mem_cons.mp hframes
      rcases Logged.after_bind_eq_error_iff.mp hfault with happly | ⟨_, _, -, hlater⟩
      · have hunknown := eq_unknownBlock_of_apply happly
        exact ⟨frame.opening.token, .inr ⟨_, _, hframe, hunknown⟩, .inr List.mem_cons_self⟩
      · obtain ⟨token, hat, hmem⟩ := ih houter hlater
        exact ⟨token, hat, hmem.imp (List.mem_cons_of_mem first) (List.mem_cons_of_mem _)⟩
  | unmatched first rest name hmeaning =>
      rw [resolveFrom_unmatched resolver.apply written rest hmeaning] at hfault
      cases hfault
      exact ⟨first, .inl ⟨.unmatchedBlock, rfl⟩, .inl List.mem_cons_self⟩
  | crossed frame outer first rest name hmeaning hname =>
      rw [resolveFrom_crossed resolver.apply outer written rest hmeaning hname] at hfault
      cases hfault
      exact ⟨first, .inl ⟨.crossedBlock _, rfl⟩, .inl List.mem_cons_self⟩

theorem pointsAt_of_resolve_eq_error
    {resolver : Resolver} (hfault : (resolver.resolve text).outcome.1 = .error (.fault fault)) :
    PointsAt text fault := by
  cases htext : Directive.tokens text with
  | error scanFault =>
      have hresolve : resolver.resolve text = throw (.fault scanFault) := by
        simp only [Resolver.resolve, resolveBy, htext]
      rw [hresolve] at hfault
      cases hfault
      exact pointsAt_of_tokens_eq_error htext
  | ok found =>
      rw [Resolver.resolve, resolveBy_of_tokens resolver.apply htext, Logged.outcome_eq_after]
        at hfault
      obtain ⟨token, hat, hmem | hnone⟩ :=
        exists_mem_of_resolveFrom (List.forall_mem_nil _) (Prod.ext hfault rfl)
      · exact hat.pointsAt htext hmem
      · contradiction

/-- Whatever fault compiling a template or resolving its blocks ends with, it points at the
source. -/
theorem pointsAt_of_fault
    {translator : List Char} {resolver : Resolver}
    (hfault : hostCode translator text = .error fault ∨
      (resolver.resolve text).outcome.1 = .error (.fault fault)) : PointsAt text fault :=
  hfault.elim pointsAt_of_hostCode_eq_error pointsAt_of_resolve_eq_error

/-- The first mark of either text is plain text.  The second `else` of the branch is one too many, and
the block has no handler, which is found when it is closed. -/
theorem pointsAt_of_fault_nested :
    let text := "\x7b\x7b \x7b\x7b if $a \x7d\x7d\x7b\x7b else \x7d\x7d\x7b\x7b else \x7d\x7d".toList
    let code := "\x7b\x7b \x7b\x7b block:a \x7d\x7dy\x7b\x7b /block:a \x7d\x7d".toList
    let fault : TemplateFault := .malformedDirective (marked " else ") .branchAfterElse (some 24)
    let unknown : TemplateFault := .unknownBlock ['a'] (some 3)
    let resolver : Resolver := ⟨[], true, none⟩
    (hostCode translatorName text = .error fault ∧ PointsAt text fault) ∧
      ((resolver.resolve code).outcome.1 = .error (.fault unknown) ∧ PointsAt code unknown) := by
  intro text code fault unknown resolver
  have htext : hostCode translatorName text = .error fault := by decide +kernel
  have hcode : (resolver.resolve code).outcome.1 = .error (.fault unknown) := by decide +kernel
  have hcompiled : hostCode translatorName text = .error fault ∨
      (resolver.resolve text).outcome.1 = .error (.fault fault) := .inl htext
  have hresolved : hostCode translatorName code = .error unknown ∨
      (resolver.resolve code).outcome.1 = .error (.fault unknown) := .inr hcode
  exact ⟨⟨htext, pointsAt_of_fault hcompiled⟩, ⟨hcode, pointsAt_of_fault hresolved⟩⟩

end Stencil.Block
