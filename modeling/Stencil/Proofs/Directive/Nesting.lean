import Stencil.Proofs.Directive.Image

/-!
# Nesting of branches and loops

A document is a sequence of branches, loops and other tokens.  A branch has a body for its
condition, for each further condition and, as the last one, for the case that none holds; a loop has
one body.  The bodies are documents again.  The compiler accepts exactly the documents, and what it
writes for one is the images of its tokens.
-/

namespace Stencil.Directive

/-- What a list of tokens can be: a document, or what follows the first body of a branch. -/
inductive Phrase where
  | document
  | branches

/-- The grammar of nested branches and loops. -/
inductive Derives : Phrase → List Token → Prop where
  | empty : Derives .document []
  | leaf {token : Token} {rest : List Token}
      (htoken : token.isControl = false) (hrest : Derives .document rest) :
      Derives .document (token :: rest)
  | branch {opener : Token} {condition : List Char} {body branches rest : List Token}
      (hopener : opener.meaning = .branch condition) (hbody : Derives .document body)
      (hbranches : Derives .branches branches) (hrest : Derives .document rest) :
      Derives .document (opener :: (body ++ (branches ++ rest)))
  | loop {opener closer : Token} {clause : List Char} {body rest : List Token}
      (hopener : opener.meaning = .loop clause) (hbody : Derives .document body)
      (hcloser : closer.meaning = .endLoop) (hrest : Derives .document rest) :
      Derives .document (opener :: (body ++ closer :: rest))
  | elseBranch {token : Token} {condition : List Char} {body branches : List Token}
      (htoken : token.meaning = .elseBranch condition) (hbody : Derives .document body)
      (hbranches : Derives .branches branches) : Derives .branches (token :: (body ++ branches))
  | otherwise {token closer : Token} {body : List Token}
      (htoken : token.meaning = .otherwise) (hbody : Derives .document body)
      (hcloser : closer.meaning = .endBranch) : Derives .branches (token :: (body ++ [closer]))
  | endBranch {closer : Token} (hcloser : closer.meaning = .endBranch) :
      Derives .branches [closer]

variable {translator : List Char} {within : Option Construct} {token : Token}
  {tokens passed later : List Token}

/-! ## What is written for tokens -/

/-- Each of the tokens has an image, and the parts are these images in their order. -/
structure Images (translator : List Char) (passed : List Token) (parts : List (List Char)) :
    Prop where
  tags : ∀ token ∈ passed, token.isControl → (token.tag? translator).isSome
  flatten_eq : parts.flatten = passed.flatMap (Token.rewritten translator)

theorem images_nil : Images translator [] [] where
  tags := List.forall_mem_nil _
  flatten_eq := rfl

theorem images_leaf (htoken : token.isControl = false) :
    Images translator [token] [token.emitted translator] where
  tags := by
    intro other hother hcontrol
    obtain rfl := List.mem_singleton.mp hother
    rw [htoken] at hcontrol
    contradiction
  flatten_eq := by
    rw [List.flatten_singleton, List.flatMap_singleton, Token.emitted_eq_rewritten htoken]

theorem images_tag {tag : List Char} (htag : token.tag? translator = some tag) :
    Images translator [token] [tag] where
  tags := by
    intro other hother _
    obtain rfl := List.mem_singleton.mp hother
    rw [htag]
    rfl
  flatten_eq := by
    rw [List.flatten_singleton, List.flatMap_singleton, Token.rewritten, htag, Option.getD_some]

section

variable {parts others : List (List Char)}

theorem Images.append
    (hpassed : Images translator passed parts) (hlater : Images translator later others) :
    Images translator (passed ++ later) (parts ++ others) where
  tags := List.forall_mem_append.mpr ⟨hpassed.tags, hlater.tags⟩
  flatten_eq := by
    rw [List.flatten_append, List.flatMap_append, hpassed.flatten_eq, hlater.flatten_eq]

theorem Images.cons
    {tag : List Char} (htag : token.tag? translator = some tag)
    (hpassed : Images translator passed parts) :
    Images translator (token :: passed) (tag :: parts) :=
  (images_tag htag).append hpassed

/-- A construct is written as one part. -/
theorem Images.join (hpassed : Images translator passed parts) :
    Images translator passed [parts.flatten] where
  tags := hpassed.tags
  flatten_eq := by rw [List.flatten_singleton, hpassed.flatten_eq]

end

/-! ## What the compiler reads is a document -/

/-- What a passage was compiled from: a document, then the token that ends it. -/
structure Passage.Covers (translator : List Char) (passage : Passage within tokens)
    (passed : List Token) : Prop where
  tokens_eq : tokens = passed ++ (passage.terminator.toList ++ passage.rest)
  derives : Derives .document passed
  images : Images translator passed passage.parts
  ends : ∀ terminator ∈ passage.terminator, within.any (·.endsAt terminator.meaning)
  rest_eq : passage.terminator = none → passage.rest = []

/-- The token ends what is open in a branch. -/
def EndsBranch (token : Token) : Prop :=
  token.divides ∨ token.meaning = .endBranch

theorem endsAt_branch_iff {opener : Token} :
    (Construct.branch opener).endsAt token.meaning ↔ EndsBranch token := by
  unfold EndsBranch Token.divides
  cases token.meaning <;> simp [Construct.endsAt]

theorem endsAt_loop_iff {opener : Token} :
    (Construct.loop opener).endsAt token.meaning ↔ token.meaning = .endLoop := by
  cases token.meaning <;> simp [Construct.endsAt]

theorem Passage.Covers.of_construct
    {construct : Construct} {passage : Passage (some construct) tokens}
    (hcovers : passage.Covers translator passed) :
    tokens = passed ++ passage.closer :: passage.rest ∧
      construct.endsAt passage.closer.meaning := by
  have htokens := hcovers.tokens_eq
  have hends := hcovers.ends passage.closer (Option.get_mem _)
  rw [passage.toList_terminator, List.singleton_append] at htokens
  exact ⟨htokens, by simpa using hends⟩

/-- A construct in a passage is followed by the rest of the passage. -/
theorem Passage.Covers.after
    {rest : List Token} {passage : Passage within rest} (hcovers : passage.Covers translator later)
    {part : List Char} (hpart : Images translator passed [part]) (hrest : rest <:+ tokens)
    (htokens : tokens = passed ++ rest) (hderives : Derives .document (passed ++ later)) :
    (passage.after part hrest).Covers translator (passed ++ later) where
  tokens_eq :=
    calc
      tokens = passed ++ (later ++ (passage.terminator.toList ++ passage.rest)) := by
        rw [← hcovers.tokens_eq, htokens]
      _ = passed ++ later ++ (passage.terminator.toList ++ passage.rest) :=
        (List.append_assoc _ _ _).symm
  derives := hderives
  images := hpart.append hcovers.images
  ends := hcovers.ends
  rest_eq := hcovers.rest_eq

mutual

theorem exists_covers
    {within : Option Construct} {tokens : List Token} {passage : Passage within tokens}
    (hpassage : compilePassage translator within tokens = .ok passage) :
    ∃ passed, passage.Covers translator passed := by
  match tokens with
  | [] =>
      cases within with
      | some construct =>
          rw [compilePassage] at hpassage
          contradiction
      | none =>
          rw [compilePassage] at hpassage
          cases hpassage
          exact ⟨[], rfl, .empty, images_nil, by simp, fun _ => rfl⟩
  | token :: rest =>
      rw [compilePassage] at hpassage
      split at hpassage
      next hends =>
        cases hpassage
        exact ⟨[], rfl, .empty, images_nil, by simpa using hends, nofun⟩
      next =>
        split at hpassage
        next condition hmeaning =>
          obtain ⟨inner, hinner, hpassage⟩ := bind_eq_ok_iff.mp hpassage
          obtain ⟨later, hlater, hpassage⟩ := bind_eq_ok_iff.mp hpassage
          cases hpassage
          have hlength := inner.suffix.length_le
          obtain ⟨body, branches, hrest, hbody, hbranches, himages⟩ :=
            exists_branch_of_compileBranch hmeaning hinner
          obtain ⟨behind, hbehind⟩ := exists_covers hlater
          refine ⟨token :: (body ++ branches) ++ behind,
            hbehind.after himages.join _ (congrArg (token :: ·) hrest) ?_⟩
          rw [List.cons_append, List.append_assoc]
          exact .branch hmeaning hbody hbranches hbehind.derives
        next clause hmeaning =>
          obtain ⟨inner, hinner, hpassage⟩ := bind_eq_ok_iff.mp hpassage
          obtain ⟨later, hlater, hpassage⟩ := bind_eq_ok_iff.mp hpassage
          cases hpassage
          have hlength := inner.suffix.length_le
          obtain ⟨body, closer, hrest, hbody, hcloser, himages⟩ :=
            exists_loop_of_compileLoop hmeaning hinner
          obtain ⟨behind, hbehind⟩ := exists_covers hlater
          refine ⟨token :: (body ++ [closer]) ++ behind,
            hbehind.after himages.join _ (congrArg (token :: ·) hrest) ?_⟩
          rw [List.cons_append, List.append_assoc]
          exact .loop hmeaning hbody hcloser hbehind.derives
        next => contradiction
        next => contradiction
        next => contradiction
        next => contradiction
        next hbranch hloop helse hotherwise hendBranch hendLoop =>
          obtain ⟨later, hlater, hpassage⟩ := bind_eq_ok_iff.mp hpassage
          cases hpassage
          have hleaf : token.isControl = false := by
            unfold Token.isControl
            split <;> simp_all
          obtain ⟨behind, hbehind⟩ := exists_covers hlater
          exact ⟨[token] ++ behind, hbehind.after (images_leaf hleaf) _ rfl
            (.leaf hleaf hbehind.derives)⟩
termination_by 3 * tokens.length

theorem exists_branch_of_compileBranch
    {opener : Token} {condition : List Char} {tokens : List Token} {closed : Closed tokens}
    (hmeaning : opener.meaning = .branch condition)
    (hclosed : compileBranch translator opener condition tokens = .ok closed) :
    ∃ body branches, tokens = body ++ branches ++ closed.rest ∧ Derives .document body ∧
      Derives .branches branches ∧ Images translator (opener :: (body ++ branches)) closed.parts := by
  rw [compileBranch] at hclosed
  obtain ⟨written, hwritten, hclosed⟩ := bind_eq_ok_iff.mp hclosed
  obtain ⟨body, hbody, hclosed⟩ := bind_eq_ok_iff.mp hclosed
  obtain ⟨later, hlater, hclosed⟩ := bind_eq_ok_iff.mp hclosed
  cases hclosed
  have hlength := body.length_rest_lt
  obtain ⟨inside, hinside⟩ := exists_covers hbody
  obtain ⟨htokens, hends⟩ := hinside.of_construct
  obtain ⟨branches, hbranches, himages, hopen, -⟩ :=
    exists_branches_of_compileDivisions (endsAt_branch_iff.mp hends) hlater
  have htag : opener.tag? translator = some (statement ("if ".toList ++ written)) := by
    rw [Token.tag?_branch hmeaning, hwritten]
    rfl
  refine ⟨inside, _, ?_, hinside.derives, hopen rfl, (hinside.images.append himages).cons htag⟩
  rw [List.append_assoc, List.cons_append, ← hbranches]
  exact htokens
termination_by 3 * tokens.length + 2

theorem exists_branches_of_compileDivisions
    {opener divider : Token} {elseSeen : Bool} {tokens : List Token} {closed : Closed tokens}
    (hdivider : EndsBranch divider)
    (hclosed : compileDivisions translator opener elseSeen divider tokens = .ok closed) :
    ∃ passed, tokens = passed ++ closed.rest ∧ Images translator (divider :: passed) closed.parts ∧
      (elseSeen = false → Derives .branches (divider :: passed)) ∧
      (elseSeen = true → divider.meaning = .endBranch ∧ passed = []) := by
  rw [compileDivisions] at hclosed
  split at hclosed
  next hend =>
    cases hclosed
    exact ⟨[], rfl, images_tag (Token.tag?_endBranch hend), fun _ => .endBranch hend,
      fun _ => ⟨hend, rfl⟩⟩
  next hdivides =>
    split at hclosed
    next => contradiction
    next hnone =>
      obtain ⟨⟨head, last⟩, hhead, hclosed⟩ := bind_eq_ok_iff.mp hclosed
      obtain ⟨body, hbody, hclosed⟩ := bind_eq_ok_iff.mp hclosed
      obtain ⟨later, hlater, hclosed⟩ := bind_eq_ok_iff.mp hclosed
      cases hclosed
      have hlength := body.length_rest_lt
      obtain ⟨inside, hinside⟩ := exists_covers hbody
      obtain ⟨htokens, hends⟩ := hinside.of_construct
      obtain ⟨behind, hbehind, himages, hopen, hshut⟩ :=
        exists_branches_of_compileDivisions (endsAt_branch_iff.mp hends) hlater
      have hdivider := hdivider.resolve_right hdivides
      have hlast := Token.last_of_divisionHead hdivider hhead
      have htag : divider.tag? translator = some head := by
        rw [Token.tag?_division hdivider, hhead]
        rfl
      refine ⟨inside ++ body.closer :: behind, ?_, (hinside.images.append himages).cons htag,
        fun _ => ?_, fun hseen => absurd hseen hnone⟩
      · rw [List.append_assoc, List.cons_append, ← hbehind]
        exact htokens
      · rcases hdivider with ⟨condition, hmeaning⟩ | hmeaning
        · exact .elseBranch hmeaning hinside.derives (hopen (by simpa [hmeaning] using hlast))
        · obtain ⟨hcloser, rfl⟩ := hshut (by simpa [hmeaning] using hlast)
          exact .otherwise hmeaning hinside.derives hcloser
termination_by 3 * tokens.length + 1

theorem exists_loop_of_compileLoop
    {opener : Token} {clause : List Char} {tokens : List Token} {closed : Closed tokens}
    (hmeaning : opener.meaning = .loop clause)
    (hclosed : compileLoop translator opener clause tokens = .ok closed) :
    ∃ body closer, tokens = body ++ [closer] ++ closed.rest ∧ Derives .document body ∧
      closer.meaning = .endLoop ∧
      Images translator (opener :: (body ++ [closer])) closed.parts := by
  rw [compileLoop] at hclosed
  obtain ⟨head, hhead, hclosed⟩ := bind_eq_ok_iff.mp hclosed
  obtain ⟨body, hbody, hclosed⟩ := bind_eq_ok_iff.mp hclosed
  cases hclosed
  obtain ⟨inside, hinside⟩ := exists_covers hbody
  obtain ⟨htokens, hends⟩ := hinside.of_construct
  have hcloser := endsAt_loop_iff.mp hends
  have htag : opener.tag? translator = some (statement head) := by
    rw [Token.tag?_loop hmeaning, hhead]
    rfl
  refine ⟨inside, body.closer, ?_, hinside.derives, hcloser,
    (hinside.images.append (images_tag (Token.tag?_endLoop hcloser))).cons htag⟩
  rw [List.append_assoc, List.singleton_append]
  exact htokens
termination_by 3 * tokens.length + 2

end

end Stencil.Directive
