import Stencil.Directive.HostCode
import Stencil.Proofs.Directive.Scan
import Stencil.Proofs.Except

/-!
# The image of a token

Each token of a template has one image: a host tag, or its own text.  It depends on that token
alone.  What the compiler writes for a token, wherever it comes upon it, is this image.
-/

namespace Stencil.Directive

/-- The host tag that takes the place of a token, if one does. -/
def Token.tag? (translator : List Char) (token : Token) : Option (List Char) :=
  match token.meaning with
  | .text | .unknown | .blockOpen .. | .blockClose _ => none
  | .translated literal =>
    some ("<?= ".toList ++ translator ++ "(".toList ++ literal ++ ") ?>".toList)
  | .variable expression =>
    (hostExpression expression).toOption.map fun written =>
      "<?= ".toList ++ written ++ " ?>".toList
  | .translatedVariable expression =>
    (hostExpression expression).toOption.map fun written =>
      "<?= ".toList ++ translator ++ "(".toList ++ written ++ ") ?>".toList
  | .branch condition =>
    (hostExpression condition).toOption.map fun written =>
      "<?py if ".toList ++ written ++ " ?>".toList
  | .elseBranch condition =>
    (hostExpression condition).toOption.map fun written =>
      "<?py elif ".toList ++ written ++ " ?>".toList
  | .otherwise => some "<?py else ?>".toList
  | .endBranch => some "<?py endif ?>".toList
  | .loop clause =>
    (loopClause? clause).bind fun found =>
      (hostExpression found.iterable).toOption.map fun iterable =>
        match found.second with
        | none => "<?py for ".toList ++ found.first ++ " in ".toList ++ iterable ++ " ?>".toList
        | some second =>
          "<?py for ".toList ++ found.first ++ ", ".toList ++ second ++ " in ".toList ++ iterable ++
            ".items() ?>".toList
  | .endLoop => some "<?py endfor ?>".toList

def Token.rewritten (translator : List Char) (token : Token) : List Char :=
  (token.tag? translator).getD token.text

/-- The tokens that open, divide or close a branch or a loop.  These do not stay as they are. -/
def Token.isControl (token : Token) : Bool :=
  match token.meaning with
  | .branch _ | .elseBranch _ | .otherwise | .endBranch | .loop _ | .endLoop => true
  | _ => false

theorem toOption_statementExpression (token : Token) (expression : List Char) :
    (statementExpression token expression).toOption = (hostExpression expression).toOption := by
  unfold statementExpression
  cases hostExpression expression <;> rfl

theorem printed_eq_getD (token : Token) (expression : List Char) (wrap : List Char → List Char) :
    printed token expression wrap =
      ((hostExpression expression).toOption.map fun written =>
        interpolation (wrap written)).getD token.text := by
  unfold printed
  cases hostExpression expression <;> rfl

theorem interpolation_eq (expression : List Char) :
    interpolation expression = "<?= ".toList ++ expression ++ " ?>".toList := rfl

theorem statement_eq (words : List Char) :
    statement words = "<?py ".toList ++ words ++ " ?>".toList := rfl

theorem interpolation_call (function argument : List Char) :
    interpolation (call function argument) =
      "<?= ".toList ++ function ++ "(".toList ++ argument ++ ") ?>".toList := by
  have hopen : "(".toList = ['('] := rfl
  have hclose : ") ?>".toList = ')' :: " ?>".toList := rfl
  simp only [interpolation_eq, call, hopen, hclose, List.append_assoc, List.cons_append,
    List.nil_append]

theorem toOption_loopHead (token : Token) (clause : List Char) :
    (loopHead token clause).toOption =
      (loopClause? clause).bind fun found =>
        (hostExpression found.iterable).toOption.map fun iterable =>
          match found.second with
          | none => "for ".toList ++ found.first ++ " in ".toList ++ iterable
          | some second =>
            "for ".toList ++ found.first ++ ", ".toList ++ second ++ " in ".toList ++ iterable ++
              ".items()".toList := by
  unfold loopHead
  cases loopClause? clause with
  | none => rfl
  | some found =>
      obtain ⟨iterable, first, second⟩ := found
      simp only [Option.bind_some]
      rw [← toOption_statementExpression token]
      cases second <;> exact toOption_bind_ok _

/-! ## What the compiler writes for a token -/

variable {translator : List Char} {token : Token}

theorem Token.emitted_eq_rewritten (htoken : token.isControl = false) :
    token.emitted translator = token.rewritten translator := by
  unfold Token.isControl at htoken
  unfold Token.emitted Token.rewritten Token.tag?
  cases hmeaning : token.meaning with
  | text => rfl
  | unknown => rfl
  | blockOpen name attributes => rfl
  | blockClose name => rfl
  | translated literal =>
      simp only [interpolation_call, Option.getD_some]
  | «variable» expression =>
      simp only [printed_eq_getD, interpolation_eq, id]
  | translatedVariable expression =>
      simp only [printed_eq_getD, interpolation_call]
  | branch condition => simp [hmeaning] at htoken
  | elseBranch condition => simp [hmeaning] at htoken
  | otherwise => simp [hmeaning] at htoken
  | endBranch => simp [hmeaning] at htoken
  | loop clause => simp [hmeaning] at htoken
  | endLoop => simp [hmeaning] at htoken

theorem Token.tag?_branch {condition : List Char} (hmeaning : token.meaning = .branch condition) :
    token.tag? translator =
      (statementExpression token condition).toOption.map fun written =>
        statement ("if ".toList ++ written) := by
  rw [Token.tag?, hmeaning, toOption_statementExpression]
  rfl

theorem Token.tag?_loop {clause : List Char} (hmeaning : token.meaning = .loop clause) :
    token.tag? translator = (loopHead token clause).toOption.map statement := by
  simp only [Token.tag?, hmeaning]
  rw [toOption_loopHead, Option.map_bind]
  congr 1
  funext found
  rw [Function.comp_apply, Option.map_map]
  congr 1
  funext iterable
  rw [Function.comp_apply]
  cases found.second <;> simp only [statement_eq, List.append_assoc] <;> rfl

/-- The token begins another division of a branch. -/
def Token.divides (token : Token) : Prop :=
  (∃ condition, token.meaning = .elseBranch condition) ∨ token.meaning = .otherwise

theorem Token.tag?_division (hdivides : token.divides) :
    token.tag? translator = (divisionHead token).toOption.map Prod.fst := by
  rcases hdivides with ⟨condition, hmeaning⟩ | hmeaning
  · rw [Token.tag?, divisionHead]
    simp only [hmeaning]
    rw [toOption_bind_ok, toOption_statementExpression, Option.map_map]
    rfl
  · rw [Token.tag?, divisionHead]
    simp only [hmeaning]
    rfl

/-- Only the case that no condition holds is a last division. -/
theorem Token.last_of_divisionHead
    {head : List Char} {last : Bool} (hdivides : token.divides)
    (hhead : divisionHead token = .ok (head, last)) :
    last = decide (token.meaning = .otherwise) := by
  rcases hdivides with ⟨condition, hmeaning⟩ | hmeaning
  · rw [divisionHead, hmeaning] at hhead
    obtain ⟨written, -, hhead⟩ := bind_eq_ok_iff.mp hhead
    cases hhead
    simp [hmeaning]
  · rw [divisionHead, hmeaning] at hhead
    cases hhead
    simp [hmeaning]

theorem Token.tag?_endBranch (hmeaning : token.meaning = .endBranch) :
    token.tag? translator = some (statement "endif".toList) := by
  rw [Token.tag?, hmeaning]
  rfl

theorem Token.tag?_endLoop (hmeaning : token.meaning = .endLoop) :
    token.tag? translator = some (statement "endfor".toList) := by
  rw [Token.tag?, hmeaning]
  rfl

end Stencil.Directive
