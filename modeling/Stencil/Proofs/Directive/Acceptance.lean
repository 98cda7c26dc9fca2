import Stencil.Proofs.Directive.Descent
import Stencil.Proofs.Directive.Lexing
import Stencil.Proofs.Directive.LoopForm
import Stencil.Proofs.Directive.Partition

/-!
# The templates that have host code

A template has host code if its tokens are nested as the grammar wants it, its loops have their
form, and no control token names a private variable.  Every other template is refused as a
malformed directive.
-/

namespace Stencil.Directive

open Stencil.Text

/-- What the tokens of a template have to be. -/
structure Accepted (found : List Token) : Prop where
  nested : Derives .document found
  loopForm :
    ∀ token ∈ found, ∀ clause, token.meaning = .loop clause → ∃ loop, LoopForm clause loop
  conditionPublic :
    ∀ token ∈ found, ∀ condition,
      token.meaning = .branch condition ∨ token.meaning = .elseBranch condition →
        ¬NamesPrivate condition
  iterablePublic :
    ∀ token ∈ found, ∀ clause loop,
      token.meaning = .loop clause → ShortestLoopForm clause loop → ¬NamesPrivate loop.iterable

theorem isSome_toOption_hostExpression_iff {expression : List Char} :
    (hostExpression expression).toOption.isSome ↔ ¬NamesPrivate expression := by
  rw [← isError_hostExpression_iff]
  cases hostExpression expression <;> simp [Except.toOption]

theorem isSome_loopTag_iff
    {translator : List Char} {token : Token} {clause : List Char}
    (hmeaning : token.meaning = .loop clause) :
    (token.tag? translator).isSome ↔
      (∃ loop, LoopForm clause loop) ∧
        ∀ loop, ShortestLoopForm clause loop → ¬NamesPrivate loop.iterable := by
  have htag : (token.tag? translator).isSome ↔
      ∃ loop, ShortestLoopForm clause loop ∧ ¬NamesPrivate loop.iterable := by
    simp only [Token.tag?, hmeaning, ← loopClause?_eq_some_iff,
      ← isSome_toOption_hostExpression_iff]
    cases loopClause? clause <;> simp
  rw [htag, ← exists_shortestLoopForm_iff]
  constructor
  · rintro ⟨loop, hloop, hpublic⟩
    refine ⟨⟨loop, hloop⟩, fun other hother => ?_⟩
    rw [hother.unique hloop]
    exact hpublic
  · rintro ⟨⟨loop, hloop⟩, hpublic⟩
    exact ⟨loop, hloop, hpublic loop hloop⟩

/-- A control token has its tag if what it carries has the right form. -/
theorem isSome_tag?_iff {translator : List Char} {token : Token} :
    (token.isControl → (token.tag? translator).isSome) ↔
      (∀ clause, token.meaning = .loop clause → ∃ loop, LoopForm clause loop) ∧
        (∀ condition,
          token.meaning = .branch condition ∨ token.meaning = .elseBranch condition →
            ¬NamesPrivate condition) ∧
        ∀ clause loop,
          token.meaning = .loop clause → ShortestLoopForm clause loop →
            ¬NamesPrivate loop.iterable := by
  cases hmeaning : token.meaning with
  | branch condition =>
      simp [Token.isControl, Token.tag?, hmeaning, isSome_toOption_hostExpression_iff]
  | elseBranch condition =>
      simp [Token.isControl, Token.tag?, hmeaning, isSome_toOption_hostExpression_iff]
  | loop clause =>
      have hcontrol : token.isControl = true := by simp [Token.isControl, hmeaning]
      rw [isSome_loopTag_iff hmeaning]
      constructor
      · intro htag
        obtain ⟨hform, hpublic⟩ := htag hcontrol
        refine ⟨?_, ?_, ?_⟩
        · rintro _ ⟨⟩
          exact hform
        · rintro condition (hbranch | hbranch) <;> contradiction
        · rintro _ loop ⟨⟩
          exact hpublic loop
      · rintro ⟨hform, _, hpublic⟩ _
        exact ⟨hform clause rfl, fun loop => hpublic clause loop rfl⟩
  | text => simp [Token.isControl, hmeaning]
  | unknown => simp [Token.isControl, hmeaning]
  | «variable» expression => simp [Token.isControl, hmeaning]
  | translated literal => simp [Token.isControl, hmeaning]
  | translatedVariable expression => simp [Token.isControl, hmeaning]
  | otherwise => simp [Token.isControl, Token.tag?, hmeaning]
  | endBranch => simp [Token.isControl, Token.tag?, hmeaning]
  | endLoop => simp [Token.isControl, Token.tag?, hmeaning]
  | blockOpen name attributes => simp [Token.isControl, hmeaning]
  | blockClose name => simp [Token.isControl, hmeaning]

theorem accepted_iff (translator : List Char) {found : List Token} :
    Accepted found ↔
      Derives .document found ∧
        ∀ token ∈ found, token.isControl → (token.tag? translator).isSome := by
  simp only [isSome_tag?_iff]
  constructor
  · intro haccepted
    refine ⟨haccepted.nested, fun token htoken => ⟨?_, ?_, ?_⟩⟩
    · exact haccepted.loopForm token htoken
    · exact haccepted.conditionPublic token htoken
    · exact haccepted.iterablePublic token htoken
  · rintro ⟨hnested, htags⟩
    exact {
      nested := hnested
      loopForm := fun token htoken => (htags token htoken).1
      conditionPublic := fun token htoken => (htags token htoken).2.1
      iterablePublic := fun token htoken => (htags token htoken).2.2 }

/-! ## Faults -/

variable {translator : List Char} {token : Token} {found others : List Token}
  {fault : TemplateFault}

/-- The fault is a fault at one of the tokens. -/
def FaultAt (found : List Token) (fault : TemplateFault) : Prop :=
  ∃ token ∈ found, ∃ defect, fault = token.fault defect

theorem faultAt_fault (hmem : token ∈ found) (defect : Defect) :
    FaultAt found (token.fault defect) :=
  ⟨token, hmem, defect, rfl⟩

theorem FaultAt.mono (hfault : FaultAt found fault) (hsubset : found ⊆ others) :
    FaultAt others fault := by
  obtain ⟨token, hmem, hdefect⟩ := hfault
  exact ⟨token, hsubset hmem, hdefect⟩

theorem faultAt_of_statementExpression
    {expression : List Char} (hmem : token ∈ found)
    (hwritten : statementExpression token expression = .error fault) : FaultAt found fault := by
  unfold statementExpression at hwritten
  split at hwritten
  next => contradiction
  next =>
    cases hwritten
    exact faultAt_fault hmem _

theorem faultAt_of_loopHead
    {clause : List Char} (hmem : token ∈ found) (hhead : loopHead token clause = .error fault) :
    FaultAt found fault := by
  unfold loopHead at hhead
  split at hhead
  next =>
    cases hhead
    exact faultAt_fault hmem _
  next =>
    rcases bind_eq_error_iff.mp hhead with hiterable | ⟨iterable, _, hhead⟩
    · exact faultAt_of_statementExpression hmem hiterable
    · split at hhead <;> contradiction

theorem faultAt_of_divisionHead
    (hmem : token ∈ found) (hhead : divisionHead token = .error fault) : FaultAt found fault := by
  unfold divisionHead at hhead
  split at hhead
  next =>
    rcases bind_eq_error_iff.mp hhead with hcondition | ⟨condition, _, hhead⟩
    · exact faultAt_of_statementExpression hmem hcondition
    · contradiction
  next => contradiction

mutual

/-- A fault of a passage is a fault at one of its tokens, or at the opener that is not closed. -/
theorem faultAt_of_compilePassage
    {within : Option Construct} {found : List Token}
    (hpassage : compilePassage translator within found = .error fault) :
    FaultAt ((within.map Construct.opener).toList ++ found) fault := by
  match found with
  | [] =>
      cases within with
      | none =>
          rw [compilePassage] at hpassage
          contradiction
      | some construct =>
          rw [compilePassage] at hpassage
          cases hpassage
          exact faultAt_fault List.mem_cons_self _
  | token :: rest =>
      have hopener := List.subset_append_left (within.map Construct.opener).toList (token :: rest)
      have hfound := List.subset_append_right (within.map Construct.opener).toList (token :: rest)
      have hlater {behind : List Token} (hbehind : behind <:+ rest) {fault : TemplateFault}
          (hfault : FaultAt ((within.map Construct.opener).toList ++ behind) fault) :
          FaultAt ((within.map Construct.opener).toList ++ token :: rest) fault :=
        hfault.mono (List.append_subset.mpr ⟨hopener, List.Subset.trans
          (hbehind.trans (List.suffix_cons token rest)).subset hfound⟩)
      rw [compilePassage] at hpassage
      split at hpassage
      next => contradiction
      next =>
        split at hpassage
        next condition _ =>
          rcases bind_eq_error_iff.mp hpassage with hinner | ⟨inner, _, hpassage⟩
          · exact (faultAt_of_compileBranch hinner).mono hfound
          · have hlength := inner.suffix.length_le
            rcases bind_eq_error_iff.mp hpassage with hbehind | ⟨_, _, hpassage⟩
            · exact hlater inner.suffix (faultAt_of_compilePassage hbehind)
            · contradiction
        next clause _ =>
          rcases bind_eq_error_iff.mp hpassage with hinner | ⟨inner, _, hpassage⟩
          · exact (faultAt_of_compileLoop hinner).mono hfound
          · have hlength := inner.suffix.length_le
            rcases bind_eq_error_iff.mp hpassage with hbehind | ⟨_, _, hpassage⟩
            · exact hlater inner.suffix (faultAt_of_compilePassage hbehind)
            · contradiction
        case h_7 =>
          rcases bind_eq_error_iff.mp hpassage with hbehind | ⟨_, _, hpassage⟩
          · exact hlater List.suffix_rfl (faultAt_of_compilePassage hbehind)
          · contradiction
        all_goals
          cases hpassage
          exact faultAt_fault (hfound List.mem_cons_self) _
termination_by 3 * found.length

theorem faultAt_of_compileBranch
    {opener : Token} {condition : List Char} {found : List Token}
    (hclosed : compileBranch translator opener condition found = .error fault) :
    FaultAt (opener :: found) fault := by
  rw [compileBranch] at hclosed
  rcases bind_eq_error_iff.mp hclosed with hcondition | ⟨_, _, hclosed⟩
  · exact faultAt_of_statementExpression List.mem_cons_self hcondition
  rcases bind_eq_error_iff.mp hclosed with hbody | ⟨body, _, hclosed⟩
  · exact faultAt_of_compilePassage hbody
  rcases bind_eq_error_iff.mp hclosed with hlater | ⟨_, _, hclosed⟩
  · have hlength := body.length_rest_lt
    exact (faultAt_of_compileDivisions hlater).mono
      (List.cons_subset_cons opener body.closer_suffix.subset)
  · contradiction
termination_by 3 * found.length + 2

theorem faultAt_of_compileDivisions
    {opener divider : Token} {elseSeen : Bool} {found : List Token}
    (hclosed : compileDivisions translator opener elseSeen divider found = .error fault) :
    FaultAt (opener :: divider :: found) fault := by
  have hdivider : divider ∈ opener :: divider :: found := List.mem_cons_of_mem _ List.mem_cons_self
  have hfound : opener :: found ⊆ opener :: divider :: found :=
    List.cons_subset_cons opener (List.subset_cons_self divider found)
  rw [compileDivisions] at hclosed
  split at hclosed
  next => contradiction
  next =>
    split at hclosed
    next =>
      cases hclosed
      exact faultAt_fault hdivider _
    next =>
      rcases bind_eq_error_iff.mp hclosed with hhead | ⟨_, _, hclosed⟩
      · exact faultAt_of_divisionHead hdivider hhead
      rcases bind_eq_error_iff.mp hclosed with hbody | ⟨body, _, hclosed⟩
      · exact (faultAt_of_compilePassage hbody).mono hfound
      rcases bind_eq_error_iff.mp hclosed with hlater | ⟨_, _, hclosed⟩
      · have hlength := body.length_rest_lt
        exact (faultAt_of_compileDivisions hlater).mono
          (List.Subset.trans (List.cons_subset_cons opener body.closer_suffix.subset) hfound)
      · contradiction
termination_by 3 * found.length + 1

theorem faultAt_of_compileLoop
    {opener : Token} {clause : List Char} {found : List Token}
    (hclosed : compileLoop translator opener clause found = .error fault) :
    FaultAt (opener :: found) fault := by
  rw [compileLoop] at hclosed
  rcases bind_eq_error_iff.mp hclosed with hhead | ⟨_, _, hclosed⟩
  · exact faultAt_of_loopHead List.mem_cons_self hhead
  rcases bind_eq_error_iff.mp hclosed with hbody | ⟨_, _, hclosed⟩
  · exact faultAt_of_compilePassage hbody
  · contradiction
termination_by 3 * found.length + 2

end

/-- A fault of a template is a fault of the scan or a fault at one of its tokens. -/
theorem hostCode_eq_error_cases
    {text : List Char} (hcode : hostCode translator text = .error fault) :
    tokens text = .error fault ∨ ∃ found, tokens text = .ok found ∧ FaultAt found fault := by
  rw [hostCode, bind_eq_error_iff] at hcode
  rcases hcode with hfound | ⟨found, hfound, hcode⟩
  · exact .inl hfound
  · rcases bind_eq_error_iff.mp hcode with hwhole | ⟨_, _, hdone⟩
    · exact .inr ⟨found, hfound, faultAt_of_compilePassage hwhole⟩
    · contradiction

theorem exists_unterminated_of_tokensFrom
    {start : Nat} {text : List Char} {fault : TemplateFault}
    (hfound : tokensFrom start text = .error fault) :
    ∃ shown position, fault = .malformedDirective shown .unterminated position := by
  induction start, text using scan_induction with
  | plain start text hmark =>
      rw [tokensFrom_of_none hmark] at hfound
      contradiction
  | unterminated start text mark hmark hspan =>
      rw [tokensFrom_of_unterminated hmark hspan] at hfound
      exact ⟨_, _, (Except.error.inj hfound).symm⟩
  | step start text next rest hstep ih =>
      obtain ⟨_, _, _, _, _, hlater⟩ := hstep.exists_eq_append
      rw [hlater, map_eq_error_iff] at hfound
      exact ih hfound

/-- A template has host code exactly if its tokens are accepted, and if it has none, the reason is
a malformed directive. -/
theorem isOk_hostCode_iff (translator text : List Char) :
    ((∃ written, hostCode translator text = .ok written) ↔
        ∃ found, tokens text = .ok found ∧ Accepted found) ∧
      ((∃ written, hostCode translator text = .ok written) ∨
        ∃ shown defect position,
          hostCode translator text = .error (.malformedDirective shown defect position)) := by
  constructor
  · simp only [hostCode_eq_ok_iff, accepted_iff translator]
    constructor
    · rintro ⟨_, found, hfound, hnested, htags, _⟩
      exact ⟨found, hfound, hnested, htags⟩
    · rintro ⟨found, hfound, hnested, htags⟩
      exact ⟨_, found, hfound, hnested, htags, rfl⟩
  · cases hcode : hostCode translator text with
    | ok written => exact .inl ⟨written, rfl⟩
    | error fault =>
        right
        rcases hostCode_eq_error_cases hcode with hfound | ⟨_, _, token, _, defect, rfl⟩
        · obtain ⟨shown, position, rfl⟩ := exists_unterminated_of_tokensFrom hfound
          exact ⟨shown, _, position, rfl⟩
        · exact ⟨_, defect, _, rfl⟩

end Stencil.Directive
