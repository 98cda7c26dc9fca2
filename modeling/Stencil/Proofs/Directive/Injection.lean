import Stencil.Proofs.Directive.Descent
import Stencil.Proofs.Directive.LoopForm
import Stencil.Proofs.Directive.Partition
import Stencil.Proofs.Directive.Written
import Stencil.Proofs.ServerCode

/-!
# Host tags in the host code of clean text

A clean text holds no opener of a host tag, so the openers in its host code should be those of the
tags that were written for its tokens.  An expression with a hidden opener adds one more, and
nothing else does.
-/

namespace Stencil.Directive

open Stencil.Text

def Token.expression? (token : Token) : Option (List Char) :=
  match token.meaning with
  | .variable expression | .translatedVariable expression => some expression
  | .branch condition | .elseBranch condition => some condition
  | .loop clause => (loopClause? clause).map LoopClause.iterable
  | _ => none

def Token.isTagged (token : Token) : Bool :=
  (token.tag? translatorName).isSome

def Token.HasHiddenOpener (token : Token) : Prop :=
  ∃ expression, token.expression? = some expression ∧ HidesOpener expression

/-! ## Tags -/

theorem interpolation_eq_cons (expression : List Char) :
    interpolation expression =
      '<' :: '?' :: '=' :: ([' '] ++ (expression ++ [' ', '?', '>'])) := by
  have hopen : "<?= ".toList = ['<', '?', '=', ' '] := rfl
  have hclose : " ?>".toList = [' ', '?', '>'] := rfl
  rw [interpolation_eq, hopen, hclose, List.append_assoc]
  rfl

theorem openerCount_interpolation (expression : List Char) :
    openerCount (interpolation expression) = 1 + openerCount expression := by
  rw [interpolation_eq_cons, openerCount, openerCount_cons_of_ne (by decide),
    openerCount_cons_of_ne (by decide), openerCount_between (by decide) rfl (by decide)]
  rfl

theorem openerCount_statement_append (rest : List Char) :
    openerCount ("<?py ".toList ++ rest) = 1 + openerCount rest := by
  have hopen : "<?py ".toList ++ rest = '<' :: '?' :: (['p', 'y', ' '] ++ rest) := rfl
  rw [hopen, openerCount, openerCount_cons_of_ne (by decide),
    openerCount_plain_append (by decide)]
  rfl

theorem openerCount_statement_between
    {before after : List Char} {d : Char} (hbefore : '<' ∉ before)
    (hd : continuesOpener d = false) (hafter : '<' ∉ d :: after) (written : List Char) :
    openerCount ("<?py ".toList ++ (before ++ (written ++ d :: after))) =
      1 + openerCount written := by
  rw [openerCount_statement_append, openerCount_between hbefore hd hafter]

theorem openerCount_call (argument : List Char) :
    openerCount (call translatorName argument) = openerCount argument := by
  have hcall : call translatorName argument =
      (translatorName ++ ['(']) ++ (argument ++ ')' :: []) := by
    simp only [call, List.append_assoc, List.cons_append, List.nil_append]
  rw [hcall]
  exact openerCount_between (by decide) rfl (by decide) argument

theorem notMem_bracket_of_isName {name : List Char} (hname : IsName name) : '<' ∉ name := by
  intro hbracket
  have hword := hname.all_isWord '<' hbracket
  contradiction

/-- What stands before and behind the expression in the tag of a token. -/
inductive Frames (translator : List Char) : Meaning → List Char → List Char → Prop where
  | «variable» (expression : List Char) :
      Frames translator (.variable expression) "<?= ".toList " ?>".toList
  | translatedVariable (expression : List Char) :
      Frames translator (.translatedVariable expression)
        ("<?= ".toList ++ translator ++ "(".toList) ") ?>".toList
  | branch (condition : List Char) :
      Frames translator (.branch condition) "<?py if ".toList " ?>".toList
  | elseBranch (condition : List Char) :
      Frames translator (.elseBranch condition) "<?py elif ".toList " ?>".toList
  | loop (clause : List Char) {first : List Char} (hfirst : IsName first) :
      Frames translator (.loop clause) ("<?py for ".toList ++ first ++ " in ".toList) " ?>".toList
  | pairLoop (clause : List Char) {first second : List Char} (hfirst : IsName first)
      (hsecond : IsName second) :
      Frames translator (.loop clause)
        ("<?py for ".toList ++ first ++ ", ".toList ++ second ++ " in ".toList)
        ".items() ?>".toList

theorem exists_of_map_hostExpression
    {expression tag : List Char} {wrap : List Char → List Char}
    (htag : (hostExpression expression).toOption.map wrap = some tag) :
    ∃ written, hostExpression expression = .ok written ∧ tag = wrap written := by
  obtain ⟨written, hwritten, rfl⟩ := Option.map_eq_some_iff.mp htag
  exact ⟨written, toOption_eq_some_iff.mp hwritten, rfl⟩

theorem Token.exists_frames
    {translator expression tag : List Char} {token : Token}
    (hexpression : token.expression? = some expression) (htag : token.tag? translator = some tag) :
    ∃ front written behind,
      Frames translator token.meaning front behind ∧ hostExpression expression = .ok written ∧
        tag = front ++ (written ++ behind) := by
  unfold Token.expression? at hexpression
  unfold Token.tag? at htag
  cases hmeaning : token.meaning with
  | «variable» argument =>
      simp only [hmeaning, Option.some.injEq] at hexpression htag
      subst hexpression
      obtain ⟨written, hwritten, rfl⟩ := exists_of_map_hostExpression htag
      exact ⟨_, written, _, .variable argument, hwritten, List.append_assoc _ _ _⟩
  | translatedVariable argument =>
      simp only [hmeaning, Option.some.injEq] at hexpression htag
      subst hexpression
      obtain ⟨written, hwritten, rfl⟩ := exists_of_map_hostExpression htag
      exact ⟨_, written, _, .translatedVariable argument, hwritten, List.append_assoc _ _ _⟩
  | branch condition =>
      simp only [hmeaning, Option.some.injEq] at hexpression htag
      subst hexpression
      obtain ⟨written, hwritten, rfl⟩ := exists_of_map_hostExpression htag
      exact ⟨_, written, _, .branch condition, hwritten, List.append_assoc _ _ _⟩
  | elseBranch condition =>
      simp only [hmeaning, Option.some.injEq] at hexpression htag
      subst hexpression
      obtain ⟨written, hwritten, rfl⟩ := exists_of_map_hostExpression htag
      exact ⟨_, written, _, .elseBranch condition, hwritten, List.append_assoc _ _ _⟩
  | loop clause =>
      simp only [hmeaning] at hexpression htag
      obtain ⟨loop, hloop, htag⟩ := Option.bind_eq_some_iff.mp htag
      rw [hloop, Option.map_some, Option.some.injEq] at hexpression
      subst hexpression
      obtain ⟨written, hwritten, rfl⟩ := exists_of_map_hostExpression htag
      obtain ⟨tail, -, -, hbound⟩ := (loopClause?_eq_some_iff.mp hloop).1
      cases hsecond : loop.second with
      | none =>
          exact ⟨_, written, _, .loop clause hbound.isName_first, hwritten,
            List.append_assoc _ _ _⟩
      | some second =>
          rw [hsecond] at hbound
          exact ⟨_, written, _, .pairLoop clause hbound.isName_first hbound.isName_second, hwritten,
            List.append_assoc _ _ _⟩
  | text | unknown | blockOpen | blockClose | translated | otherwise | endBranch | endLoop =>
      simp [hmeaning] at hexpression

/-- A tag begins with an opener, and what is written in it is the only other place for one. -/
theorem Frames.openerCount
    {meaning : Meaning} {front behind : List Char}
    (hframes : Frames translatorName meaning front behind) (written : List Char) :
    openerCount (front ++ (written ++ behind)) = 1 + openerCount written := by
  have hclose : '<' ∉ [' ', '?', '>'] := by decide
  have hin : '<' ∉ " in ".toList := by decide
  cases hframes with
  | «variable» =>
      rw [← List.append_assoc, ← interpolation_eq, openerCount_interpolation]
  | translatedVariable =>
      have hcall := interpolation_call translatorName written
      simp only [List.append_assoc] at hcall ⊢
      rw [← hcall, openerCount_interpolation, openerCount_call]
  | branch =>
      have hif : '<' ∉ "if ".toList := by decide
      exact openerCount_statement_between hif rfl hclose written
  | elseBranch =>
      have helif : '<' ∉ "elif ".toList := by decide
      exact openerCount_statement_between helif rfl hclose written
  | @loop _ first hfirst =>
      have hbefore : '<' ∉ "for ".toList ++ first ++ " in ".toList := by
        simp only [List.mem_append, not_or]
        exact ⟨⟨by decide, notMem_bracket_of_isName hfirst⟩, hin⟩
      have hcount := openerCount_statement_between hbefore rfl hclose written
      simp only [List.append_assoc] at hcount ⊢
      exact hcount
  | @pairLoop _ first second hfirst hsecond =>
      have hbefore :
          '<' ∉ "for ".toList ++ first ++ ", ".toList ++ second ++ " in ".toList := by
        simp only [List.mem_append, not_or]
        exact ⟨⟨⟨⟨by decide, notMem_bracket_of_isName hfirst⟩, by decide⟩,
          notMem_bracket_of_isName hsecond⟩, hin⟩
      have hafter : '<' ∉ '.' :: "items() ?>".toList := by decide
      have hcount := openerCount_statement_between hbefore rfl hafter written
      simp only [List.append_assoc] at hcount ⊢
      exact hcount

theorem Token.openerCount_tag_of_expression?_eq_none
    {token : Token} {tag : List Char} (hargument : openerCount token.meaning.argument = 0)
    (hnone : token.expression? = none) (htag : token.tag? translatorName = some tag) :
    openerCount tag = 1 := by
  unfold Token.expression? at hnone
  unfold Token.tag? at htag
  cases hmeaning : token.meaning with
  | translated literal =>
      simp only [hmeaning, Option.some.injEq] at htag
      rw [hmeaning] at hargument
      rw [← htag, ← interpolation_call, openerCount_interpolation, openerCount_call]
      exact congrArg (1 + ·) hargument
  | otherwise | endBranch | endLoop =>
      simp only [hmeaning, Option.some.injEq] at htag
      subst tag
      decide
  | loop clause =>
      simp only [hmeaning, Option.map_eq_none_iff] at hnone
      simp [hmeaning, hnone] at htag
  | «variable» | translatedVariable | branch | elseBranch => simp [hmeaning] at hnone
  | text | unknown | blockOpen | blockClose => simp [hmeaning] at htag

/-! ## What a token carries -/

theorem Scanned.argument_isInfix
    {start : Nat} {text : List Char} {found : List Token} (hscanned : Scanned start text found) :
    ∀ token ∈ found, token.meaning.argument <:+: token.text := by
  intro token htoken
  rcases hscanned.plain_or_marked htoken with ⟨hplain, -⟩ | ⟨directive, place, -, rfl⟩
  · rw [hplain]
    exact List.nil_infix
  · exact argument_meaningOf_isInfix _

theorem Scanned.text_isInfix
    {start : Nat} {text : List Char} {found : List Token} (hscanned : Scanned start text found) :
    ∀ token ∈ found, token.text <:+: text := by
  intro token htoken
  obtain ⟨before, after, rfl⟩ := List.append_of_mem htoken
  refine ⟨before.flatMap Token.text, after.flatMap Token.text, ?_⟩
  rw [← hscanned.flatMap_text, List.flatMap_append, List.flatMap_cons, List.append_assoc]

theorem Token.expression?_isInfix
    {token : Token} {expression : List Char} (hexpression : token.expression? = some expression) :
    expression <:+: token.meaning.argument := by
  unfold Token.expression? at hexpression
  cases hmeaning : token.meaning with
  | loop clause =>
      simp only [hmeaning, Option.map_eq_some_iff] at hexpression
      obtain ⟨loop, hloop, rfl⟩ := hexpression
      obtain ⟨⟨tail, hclause, _⟩, _⟩ := loopClause?_eq_some_iff.mp hloop
      have hbegins : loop.iterable <+: clause := ⟨tail, hclause.symm⟩
      exact hbegins.isInfix
  | «variable» argument | translatedVariable argument | branch argument | elseBranch argument =>
      simp only [hmeaning, Option.some.injEq] at hexpression
      subst hexpression
      exact List.infix_rfl
  | _ => simp [hmeaning] at hexpression

/-- The tag of a token counts once, unless a hidden opener is written in it. -/
theorem Token.openerCount_rewritten
    {token : Token} (htext : openerCount token.text = 0)
    (hargument : token.meaning.argument <:+: token.text) :
    (token.isTagged = false → openerCount (token.rewritten translatorName) = 0) ∧
      (token.isTagged = true →
        1 ≤ openerCount (token.rewritten translatorName) ∧
          (openerCount (token.rewritten translatorName) = 1 ↔ ¬token.HasHiddenOpener)) := by
  unfold Token.isTagged Token.rewritten
  cases htag : token.tag? translatorName with
  | none => exact ⟨fun _ => htext, fun htagged => by contradiction⟩
  | some tag =>
      refine ⟨fun htagged => by contradiction, fun _ => ?_⟩
      rw [Option.getD_some]
      have hcarried := openerCount_eq_zero_of_isInfix hargument htext
      cases hexpression : token.expression? with
      | none =>
          have hcount := Token.openerCount_tag_of_expression?_eq_none hcarried hexpression htag
          refine ⟨by omega, fun _ => ?_, fun _ => hcount⟩
          rintro ⟨expression, hsome, _⟩
          rw [hexpression] at hsome
          contradiction
      | some expression =>
          obtain ⟨front, written, behind, hframes, hwritten, rfl⟩ :=
            Token.exists_frames hexpression htag
          have hplain :=
            openerCount_eq_zero_of_isInfix (Token.expression?_isInfix hexpression) hcarried
          have hzero := openerCount_hostExpression_eq_zero_iff hplain hwritten
          have hhidden : token.HasHiddenOpener ↔ HidesOpener expression := by
            simp [Token.HasHiddenOpener, hexpression]
          rw [hhidden, ← hzero, hframes.openerCount]
          omega

/-! ## Neighbours -/

/-- No opener reaches over the two ends of a text. -/
def Enclosed (text : List Char) : Prop :=
  ∃ first middle last,
    text = first :: middle ++ [last] ∧ continuesOpener first = false ∧
      continuesOpener last = false ∧ last ≠ '<'

theorem Enclosed.openerCount_append
    {text : List Char} (htext : Enclosed text) (before after : List Char) :
    openerCount (before ++ (text ++ after)) =
      openerCount before + (openerCount text + openerCount after) := by
  obtain ⟨first, middle, last, rfl, hfirst, hlast, hbracket⟩ := htext
  have hafter := openerCount_append_of_last hlast hbracket (first :: middle) after
  rw [← hafter]
  exact openerCount_append_cons hfirst before (middle ++ [last] ++ after)

theorem IsMarked.enclosed {text : List Char} (hmarked : IsMarked text) : Enclosed text := by
  obtain ⟨inside, rfl⟩ := hmarked
  refine ⟨'{', '{' :: inside ++ ['}'], '}', ?_, rfl, rfl, by decide⟩
  simp [openMark, closeMark]

theorem enclosed_interpolation (expression : List Char) : Enclosed (interpolation expression) := by
  refine ⟨'<', '?' :: '=' :: ' ' :: (expression ++ [' ', '?']), '>', ?_, rfl, rfl, by decide⟩
  rw [interpolation_eq_cons]
  simp

theorem enclosed_statement (words : List Char) : Enclosed (statement words) := by
  refine ⟨'<', '?' :: 'p' :: 'y' :: ' ' :: (words ++ [' ', '?']), '>', ?_, rfl, rfl, by decide⟩
  have hopen : "<?py ".toList = ['<', '?', 'p', 'y', ' '] := rfl
  have hclose : " ?>".toList = [' ', '?', '>'] := rfl
  rw [statement_eq, hopen, hclose]
  simp

theorem printed_cases (token : Token) (expression : List Char) (wrap : List Char → List Char) :
    printed token expression wrap = token.text ∨
      ∃ written, printed token expression wrap = interpolation written := by
  unfold printed
  split
  · exact .inr ⟨_, rfl⟩
  · exact .inl rfl

/-- What stands for a control token is a statement. -/
theorem Token.exists_statement_of_isControl
    {translator tag : List Char} {token : Token} (hcontrol : token.isControl = true)
    (htag : token.tag? translator = some tag) : ∃ words, tag = statement words := by
  unfold Token.isControl at hcontrol
  split at hcontrol
  next _ hmeaning =>
    rw [Token.tag?_branch hmeaning, Option.map_eq_some_iff] at htag
    obtain ⟨_, _, rfl⟩ := htag
    exact ⟨_, rfl⟩
  next condition hmeaning =>
    rw [Token.tag?_division (.inl ⟨condition, hmeaning⟩), divisionHead, hmeaning] at htag
    simp only [toOption_bind_ok, Option.map_map, Option.map_eq_some_iff] at htag
    obtain ⟨_, _, rfl⟩ := htag
    exact ⟨_, rfl⟩
  next hmeaning =>
    rw [Token.tag?_division (.inr hmeaning), divisionHead, hmeaning] at htag
    cases htag
    exact ⟨_, rfl⟩
  next hmeaning =>
    rw [Token.tag?_endBranch hmeaning] at htag
    cases htag
    exact ⟨_, rfl⟩
  next _ hmeaning =>
    rw [Token.tag?_loop hmeaning, Option.map_eq_some_iff] at htag
    obtain ⟨_, _, rfl⟩ := htag
    exact ⟨_, rfl⟩
  next hmeaning =>
    rw [Token.tag?_endLoop hmeaning] at htag
    cases htag
    exact ⟨_, rfl⟩
  next => contradiction

/-- A token is written as it is, as an interpolation or as a statement. -/
theorem Token.rewritten_cases (translator : List Char) (token : Token) :
    token.rewritten translator = token.text ∨
      (∃ expression, token.rewritten translator = interpolation expression) ∨
      ∃ words, token.rewritten translator = statement words := by
  cases hcontrol : token.isControl with
  | false =>
      rw [← Token.emitted_eq_rewritten hcontrol, Token.emitted]
      split
      next => exact .inr (.inl ⟨_, rfl⟩)
      next => exact (printed_cases token _ _).imp_right .inl
      next => exact (printed_cases token _ _).imp_right .inl
      next => exact .inl rfl
  | true =>
      rw [Token.rewritten]
      cases htag : token.tag? translator with
      | none => exact .inl rfl
      | some tag => exact .inr (.inr (Token.exists_statement_of_isControl hcontrol htag))

theorem Token.enclosed_rewritten
    {translator : List Char} {token : Token} (hmarked : IsMarked token.text) :
    Enclosed (token.rewritten translator) := by
  rcases Token.rewritten_cases translator token with hkept | ⟨expression, hwritten⟩ |
    ⟨words, hwritten⟩
  · rw [hkept]
    exact hmarked.enclosed
  · rw [hwritten]
    exact enclosed_interpolation expression
  · rw [hwritten]
    exact enclosed_statement words

/-- The openers that are written for the tokens, each token for itself. -/
def writtenOpeners : List Token → Nat
  | [] => 0
  | token :: rest => openerCount (token.rewritten translatorName) + writtenOpeners rest

theorem writtenOpeners_append (earlier later : List Token) :
    writtenOpeners (earlier ++ later) = writtenOpeners earlier + writtenOpeners later := by
  induction earlier with
  | nil => rw [List.nil_append, writtenOpeners, Nat.zero_add]
  | cons token rest ih => rw [List.cons_append, writtenOpeners, writtenOpeners, ih, Nat.add_assoc]

theorem writtenOpeners_plainToken (start : Nat) (text : List Char) :
    writtenOpeners (plainToken start text) = openerCount text ∧
      (plainToken start text).flatMap (Token.rewritten translatorName) = text := by
  unfold plainToken
  split
  next hempty =>
    rw [List.isEmpty_iff] at hempty
    subst text
    exact ⟨rfl, rfl⟩
  next => simp [writtenOpeners, Token.rewritten, Token.tag?]

/-- The openers in the host code are those that are written for the tokens. -/
theorem Scanned.openerCount_flatMap
    {start : Nat} {text : List Char} {found : List Token} (hscanned : Scanned start text found) :
    openerCount (found.flatMap (Token.rewritten translatorName)) = writtenOpeners found := by
  induction hscanned with
  | plain start text =>
      obtain ⟨hcount, htext⟩ := writtenOpeners_plainToken start text
      rw [hcount, htext]
  | @directive start before directive rest later hmarked _ ih =>
      obtain ⟨hcount, htext⟩ := writtenOpeners_plainToken start before
      have henclosed : Enclosed ((classify directive (start + before.length)).rewritten
          translatorName) := Token.enclosed_rewritten hmarked
      rw [List.flatMap_append, htext, List.flatMap_cons, henclosed.openerCount_append, ih,
        writtenOpeners_append, hcount, writtenOpeners]

/-! ## Counting -/

theorem writtenOpeners_eq_countP_iff
    {found : List Token}
    (htagged : ∀ token ∈ found, token.isTagged = true →
      1 ≤ openerCount (token.rewritten translatorName))
    (hkept : ∀ token ∈ found, token.isTagged = false →
      openerCount (token.rewritten translatorName) = 0) :
    found.countP Token.isTagged ≤ writtenOpeners found ∧
      (writtenOpeners found = found.countP Token.isTagged ↔
        ∀ token ∈ found, token.isTagged = true →
          openerCount (token.rewritten translatorName) = 1) := by
  induction found with
  | nil => simp [writtenOpeners]
  | cons token rest ih =>
      rw [List.forall_mem_cons] at htagged hkept
      obtain ⟨hle, hiff⟩ := ih htagged.2 hkept.2
      rw [writtenOpeners, List.forall_mem_cons, ← hiff]
      cases htoken : token.isTagged with
      | true =>
          have hone := htagged.1 htoken
          rw [List.countP_cons_of_pos htoken]
          simp only [true_implies]
          omega
      | false =>
          have hzero := hkept.1 htoken
          rw [List.countP_cons_of_neg (by simp [htoken])]
          simp only [Bool.false_eq_true, false_implies, true_and]
          omega

/-- The host code of a clean text holds one opener for each tag that was written, unless a tag is
written for an expression with a hidden opener. -/
theorem openerCount_hostCode_eq_iff
    (text written : List Char)
    (hcode : hostCode translatorName (ServerCode.clean text) = .ok written) :
    ∃ found,
      tokens (ServerCode.clean text) = .ok found ∧
        (openerCount written = found.countP Token.isTagged ↔
          ∀ token ∈ found, token.isTagged → ¬token.HasHiddenOpener) := by
  obtain ⟨found, hfound, -, -, rfl⟩ := hostCode_eq_ok_iff.mp hcode
  have hscanned := scanned_of_tokensFrom hfound
  have htoken (token : Token) (hmem : token ∈ found) :=
    Token.openerCount_rewritten
      (openerCount_eq_zero_of_isInfix (hscanned.text_isInfix token hmem)
        (ServerCode.openerCount_clean text))
      (hscanned.argument_isInfix token hmem)
  have hcount := writtenOpeners_eq_countP_iff
    (fun token hmem htagged => ((htoken token hmem).2 htagged).1)
    (fun token hmem => (htoken token hmem).1)
  refine ⟨found, hfound, ?_⟩
  rw [hscanned.openerCount_flatMap, hcount.2]
  constructor
  · intro hone token hmem htagged
    exact ((htoken token hmem).2 htagged).2.mp (hone token hmem htagged)
  · intro hhidden token hmem htagged
    exact ((htoken token hmem).2 htagged).2.mpr (hhidden token hmem htagged)

theorem openerCount_hostCode_eq_iff_branch :
    ∃ found,
      tokens (ServerCode.clean
          ("<?py x ?>".toList ++ marked " if $a " ++ ['b'] ++ marked " /if ")) = .ok found ∧
        (openerCount "<?py if a ?>b<?py endif ?>".toList = found.countP Token.isTagged ↔
          ∀ token ∈ found, token.isTagged → ¬token.HasHiddenOpener) :=
  openerCount_hostCode_eq_iff _ _ (by decide +kernel)

/-- The sigil keeps the filter from seeing an opener, and then it is dropped. -/
theorem openerCount_hostCode_hidden :
    ∃ found written,
      tokens (ServerCode.clean (marked " var: $a ?><?$py if 1 ")) = .ok found ∧
        (∀ token ∈ found, token.isBlockTag = false) ∧
        hostCode translatorName (ServerCode.clean (marked " var: $a ?><?$py if 1 ")) =
          .ok written ∧
        openerCount written ≠ found.countP Token.isTagged :=
  ⟨[⟨0, marked " var: $a ?><?$py if 1 ", .variable "$a ?><?$py if 1".toList⟩],
    "<?= a ?><?py if 1 ?>".toList, by decide +kernel, by decide +kernel, by decide +kernel,
    by decide +kernel⟩

end Stencil.Directive
