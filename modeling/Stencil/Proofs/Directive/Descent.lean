import Stencil.Proofs.Directive.Nesting

/-!
# The descent into a document

The compiler gets through every document whose control tokens have tags, and leaves alone what comes
behind it.  Since what it gets through is a document, this says which tokens have host code and what
that is: the images of the tokens, one after the other, however they are nested.
-/

namespace Stencil.Directive

variable {translator : List Char} {within : Option Construct} {token opener divider closer : Token}
  {terminator : Option Token} {found inner outer rest : List Token}

/-- The tokens are compiled up to the one that ends the passage. -/
def Reads (translator : List Char) (within : Option Construct) (found : List Token)
    (terminator : Option Token) (rest : List Token) : Prop :=
  ∃ passage : Passage within found,
    compilePassage translator within found = .ok passage ∧
      passage.terminator = terminator ∧ passage.rest = rest

/-- A construct is compiled up to its end. -/
def Leaves (computed : Except TemplateFault (Closed found)) (rest : List Token) : Prop :=
  ∃ closed, computed = .ok closed ∧ closed.rest = rest

/-! ## The steps of the compiler -/

theorem reads_nil : Reads translator none [] none [] := by
  unfold Reads
  rw [compilePassage]
  exact ⟨_, rfl, rfl, rfl⟩

theorem reads_of_endsAt
    {construct : Construct} (hends : construct.endsAt token.meaning) (rest : List Token) :
    Reads translator (some construct) (token :: rest) (some token) rest := by
  unfold Reads
  rw [compilePassage, if_pos (by simpa using hends)]
  exact ⟨_, rfl, rfl, rfl⟩

/-- What opens a construct ends no passage, and neither does what belongs to none. -/
theorem not_endsAt_of_opens
    (hopens : token.isControl = false ∨ (∃ condition, token.meaning = .branch condition) ∨
      ∃ clause, token.meaning = .loop clause) :
    ¬within.any (·.endsAt token.meaning) := by
  unfold Token.isControl at hopens
  rcases within with - | (_ | _) <;> cases hmeaning : token.meaning <;>
    simp_all [Construct.endsAt]

theorem reads_leaf (htoken : token.isControl = false)
    (hrest : Reads translator within rest terminator outer) :
    Reads translator within (token :: rest) terminator outer := by
  obtain ⟨passage, hpassage, hterminator, houter⟩ := hrest
  unfold Reads
  rw [compilePassage, if_neg (not_endsAt_of_opens (.inl htoken))]
  unfold Token.isControl at htoken
  split <;> simp only [*] at htoken <;> try contradiction
  rw [hpassage]
  exact ⟨passage.after _ _, rfl, hterminator, houter⟩

theorem reads_branch
    {condition : List Char} (hmeaning : opener.meaning = .branch condition)
    (hbranch : Leaves (compileBranch translator opener condition found) rest)
    (hrest : Reads translator within rest terminator outer) :
    Reads translator within (opener :: found) terminator outer := by
  obtain ⟨closed, hclosed, rfl⟩ := hbranch
  obtain ⟨passage, hpassage, hterminator, houter⟩ := hrest
  unfold Reads
  rw [compilePassage, if_neg (not_endsAt_of_opens (.inr (.inl ⟨condition, hmeaning⟩)))]
  split
  next _ hbranch =>
    cases hmeaning.symm.trans hbranch
    exact ⟨passage.after _ _, bind_eq_ok_iff.mpr
      ⟨closed, hclosed, bind_eq_ok_iff.mpr ⟨passage, hpassage, rfl⟩⟩, hterminator, houter⟩
  all_goals simp_all

theorem reads_loop
    {clause : List Char} (hmeaning : opener.meaning = .loop clause)
    (hloop : Leaves (compileLoop translator opener clause found) rest)
    (hrest : Reads translator within rest terminator outer) :
    Reads translator within (opener :: found) terminator outer := by
  obtain ⟨closed, hclosed, rfl⟩ := hloop
  obtain ⟨passage, hpassage, hterminator, houter⟩ := hrest
  unfold Reads
  rw [compilePassage, if_neg (not_endsAt_of_opens (.inr (.inr ⟨clause, hmeaning⟩)))]
  split
  case h_2 _ hloop =>
    cases hmeaning.symm.trans hloop
    exact ⟨passage.after _ _, bind_eq_ok_iff.mpr
      ⟨closed, hclosed, bind_eq_ok_iff.mpr ⟨passage, hpassage, rfl⟩⟩, hterminator, houter⟩
  all_goals simp_all

theorem leaves_compileBranch
    {condition : List Char} (hmeaning : opener.meaning = .branch condition)
    (htag : (opener.tag? translator).isSome)
    (hbody : Reads translator (some (.branch opener)) found (some divider) inner)
    (hlater : Leaves (compileDivisions translator opener false divider inner) rest) :
    Leaves (compileBranch translator opener condition found) rest := by
  obtain ⟨⟨_, _, _, _, _⟩, hbody, rfl, rfl⟩ := hbody
  obtain ⟨closed, hclosed, rfl⟩ := hlater
  rw [Token.tag?_branch hmeaning, Option.isSome_map] at htag
  obtain ⟨written, hwritten⟩ := Option.isSome_iff_exists.mp htag
  unfold Leaves
  rw [compileBranch]
  exact ⟨_, bind_eq_ok_iff.mpr ⟨written, toOption_eq_some_iff.mp hwritten,
    bind_eq_ok_iff.mpr ⟨_, hbody, bind_eq_ok_iff.mpr ⟨closed, hclosed, rfl⟩⟩⟩, rfl⟩

theorem leaves_of_endBranch (hend : divider.meaning = .endBranch) {elseSeen : Bool} :
    Leaves (compileDivisions translator opener elseSeen divider rest) rest := by
  unfold Leaves
  rw [compileDivisions, if_pos hend]
  exact ⟨_, rfl, rfl⟩

theorem leaves_of_divides
    {head : List Char} {last : Bool} {next : Token} (hdivides : divider.divides)
    (hhead : divisionHead divider = .ok (head, last))
    (hbody : Reads translator (some (.branch opener)) found (some next) inner)
    (hlater : Leaves (compileDivisions translator opener last next inner) rest) :
    Leaves (compileDivisions translator opener false divider found) rest := by
  obtain ⟨⟨_, _, _, _, _⟩, hbody, rfl, rfl⟩ := hbody
  obtain ⟨closed, hclosed, rfl⟩ := hlater
  have hopen : divider.meaning ≠ .endBranch := by
    rcases hdivides with ⟨condition, hmeaning⟩ | hmeaning <;> simp [hmeaning]
  unfold Leaves
  rw [compileDivisions, if_neg hopen, if_neg Bool.false_ne_true]
  exact ⟨_, bind_eq_ok_iff.mpr ⟨(head, last), hhead,
    bind_eq_ok_iff.mpr ⟨_, hbody, bind_eq_ok_iff.mpr ⟨closed, hclosed, rfl⟩⟩⟩, rfl⟩

theorem leaves_compileLoop
    {clause : List Char} (hmeaning : opener.meaning = .loop clause)
    (htag : (opener.tag? translator).isSome)
    (hbody : Reads translator (some (.loop opener)) found (some closer) rest) :
    Leaves (compileLoop translator opener clause found) rest := by
  obtain ⟨⟨_, _, _, _, _⟩, hbody, rfl, rfl⟩ := hbody
  rw [Token.tag?_loop hmeaning, Option.isSome_map] at htag
  obtain ⟨head, hhead⟩ := Option.isSome_iff_exists.mp htag
  unfold Leaves
  rw [compileLoop]
  exact ⟨_, bind_eq_ok_iff.mpr ⟨head, toOption_eq_some_iff.mp hhead,
    bind_eq_ok_iff.mpr ⟨_, hbody, rfl⟩⟩, rfl⟩

/-! ## Documents are compiled -/

/-- The compiler gets through the tokens of a phrase, whatever comes behind them. -/
def Phrase.Compiles (translator : List Char) (passed : List Token) : Phrase → Prop
  | .document =>
    ∀ {within terminator rest outer}, Reads translator within rest terminator outer →
      Reads translator within (passed ++ rest) terminator outer
  | .branches =>
    ∀ opener rest, ∃ divider behind, passed = divider :: behind ∧ EndsBranch divider ∧
      Leaves (compileDivisions translator opener false divider (behind ++ rest)) rest

theorem exists_divisionHead_of_tag?
    (hdivides : divider.divides) (htag : (divider.tag? translator).isSome) :
    ∃ head, divisionHead divider = .ok (head, divider.meaning = .otherwise) := by
  rw [Token.tag?_division hdivides, Option.isSome_map] at htag
  obtain ⟨⟨head, last⟩, hhead⟩ := Option.isSome_iff_exists.mp htag
  rw [toOption_eq_some_iff] at hhead
  exact ⟨head, Token.last_of_divisionHead hdivides hhead ▸ hhead⟩

theorem Derives.compiles {phrase : Phrase} {passed : List Token} (hderives : Derives phrase passed)
    (htags : ∀ token ∈ passed, token.isControl → (token.tag? translator).isSome) :
    phrase.Compiles translator passed := by
  induction hderives with
  | empty => exact fun hrest => hrest
  | leaf htoken _ ih =>
      intro within terminator rest outer hrest
      exact reads_leaf htoken (ih (List.forall_mem_cons.mp htags).2 hrest)
  | @branch opener condition body branches behind hopener _ _ _ ihbody ihbranches ihrest =>
      simp only [List.forall_mem_cons, List.forall_mem_append] at htags
      obtain ⟨htag, hbodyTags, hbranchesTags, hrestTags⟩ := htags
      intro within terminator rest outer hrest
      obtain ⟨divider, divided, rfl, hdivider, hbranches⟩ :=
        ihbranches hbranchesTags opener (behind ++ rest)
      have hends : (Construct.branch opener).endsAt divider.meaning := endsAt_branch_iff.mpr hdivider
      have hbody := ihbody hbodyTags (reads_of_endsAt hends (divided ++ (behind ++ rest)))
      have hbranch := leaves_compileBranch hopener
        (htag (by simp [Token.isControl, hopener])) hbody hbranches
      rw [List.cons_append, List.append_assoc, List.append_assoc]
      exact reads_branch hopener hbranch (ihrest hrestTags hrest)
  | @loop opener closer clause body behind hopener _ hcloser _ ihbody ihrest =>
      simp only [List.forall_mem_cons, List.forall_mem_append] at htags
      obtain ⟨htag, hbodyTags, -, hrestTags⟩ := htags
      intro within terminator rest outer hrest
      have hends : (Construct.loop opener).endsAt closer.meaning := endsAt_loop_iff.mpr hcloser
      have hbody := ihbody hbodyTags (reads_of_endsAt hends (behind ++ rest))
      have hloop := leaves_compileLoop hopener (htag (by simp [Token.isControl, hopener])) hbody
      rw [List.cons_append, List.append_assoc]
      exact reads_loop hopener hloop (ihrest hrestTags hrest)
  | @elseBranch token condition body branches htoken _ _ ihbody ihbranches =>
      simp only [List.forall_mem_cons, List.forall_mem_append] at htags
      obtain ⟨htag, hbodyTags, hbranchesTags⟩ := htags
      intro opener rest
      obtain ⟨divider, divided, rfl, hdivider, hbranches⟩ := ihbranches hbranchesTags opener rest
      have hdivides : token.divides := .inl ⟨condition, htoken⟩
      obtain ⟨head, hhead⟩ := exists_divisionHead_of_tag? hdivides
        (htag (by simp [Token.isControl, htoken]))
      have hends : (Construct.branch opener).endsAt divider.meaning := endsAt_branch_iff.mpr hdivider
      have hbody := ihbody hbodyTags (reads_of_endsAt hends (divided ++ rest))
      simp only [htoken, reduceCtorEq, decide_false] at hhead
      refine ⟨token, _, rfl, .inl hdivides, ?_⟩
      rw [List.append_assoc]
      exact leaves_of_divides hdivides hhead hbody hbranches
  | @otherwise token closer body htoken _ hcloser ihbody =>
      simp only [List.forall_mem_cons, List.forall_mem_append] at htags
      obtain ⟨htag, hbodyTags, -⟩ := htags
      intro opener rest
      have hdivides : token.divides := .inr htoken
      obtain ⟨head, hhead⟩ := exists_divisionHead_of_tag? hdivides
        (htag (by simp [Token.isControl, htoken]))
      have hends : (Construct.branch opener).endsAt closer.meaning :=
        endsAt_branch_iff.mpr (.inr hcloser)
      have hbody := ihbody hbodyTags (reads_of_endsAt hends rest)
      refine ⟨token, _, rfl, .inl hdivides, ?_⟩
      rw [List.append_assoc]
      exact leaves_of_divides hdivides hhead hbody (leaves_of_endBranch hcloser)
  | endBranch hcloser =>
      intro opener rest
      exact ⟨_, [], rfl, .inr hcloser, leaves_of_endBranch hcloser⟩

/-! ## Host code -/

/-- Outside of all constructs the compiler reads all that there is. -/
theorem covers_of_compilePassage_none
    {whole : Passage none found} (hwhole : compilePassage translator none found = .ok whole) :
    whole.Covers translator found := by
  obtain ⟨passed, hpassed⟩ := exists_covers hwhole
  have hnone : whole.terminator = none := by
    cases hterminator : whole.terminator with
    | none => rfl
    | some closer => simpa using hpassed.ends closer hterminator
  have hfound : found = passed := by
    simpa [hnone, hpassed.rest_eq hnone] using hpassed.tokens_eq
  subst hfound
  exact hpassed

/-- What is written for a whole template, and for which templates. -/
theorem hostCode_eq_ok_iff {text written : List Char} :
    hostCode translator text = .ok written ↔
      ∃ found,
        tokens text = .ok found ∧ Derives .document found ∧
          (∀ token ∈ found, token.isControl → (token.tag? translator).isSome) ∧
          written = found.flatMap (Token.rewritten translator) := by
  rw [hostCode, bind_eq_ok_iff]
  constructor
  · rintro ⟨found, hfound, hwritten⟩
    obtain ⟨whole, hwhole, hwritten⟩ := bind_eq_ok_iff.mp hwritten
    cases hwritten
    have hcovers := covers_of_compilePassage_none hwhole
    exact ⟨found, hfound, hcovers.derives, hcovers.images.tags, hcovers.images.flatten_eq⟩
  · rintro ⟨found, hfound, hderives, htags, rfl⟩
    have hreads := hderives.compiles htags reads_nil
    rw [List.append_nil] at hreads
    obtain ⟨whole, hwhole, -, -⟩ := hreads
    have himages := (covers_of_compilePassage_none hwhole).images
    exact ⟨found, hfound,
      bind_eq_ok_iff.mpr ⟨whole, hwhole, congrArg Except.ok himages.flatten_eq⟩⟩

/-- The host code of a template is what is written for its tokens, one after the other.  A control
token is always written as a host tag. -/
theorem hostCode_eq_flatMap_rewritten
    (translator text written : List Char) (hcode : hostCode translator text = .ok written) :
    ∃ found,
      tokens text = .ok found ∧
        written = found.flatMap (Token.rewritten translator) ∧
        ∀ token ∈ found, token.isControl → (token.tag? translator).isSome := by
  obtain ⟨found, hfound, -, htags, hwritten⟩ := hostCode_eq_ok_iff.mp hcode
  exact ⟨found, hfound, hwritten, htags⟩

theorem hostCode_eq_flatMap_rewritten_nested :
    ∃ found,
      tokens (marked " if $a " ++ marked " foreach $b as $c " ++ marked " var: $_d " ++
            marked " /foreach " ++ marked " else " ++ ['x'] ++ marked " /if ") =
          .ok found ∧
        "<?py if a ?><?py for c in b ?>".toList ++ marked " var: $_d " ++
            "<?py endfor ?><?py else ?>x<?py endif ?>".toList =
          found.flatMap (Token.rewritten "t".toList) ∧
        ∀ token ∈ found, token.isControl → (token.tag? "t".toList).isSome :=
  hostCode_eq_flatMap_rewritten _ _ _ (by decide +kernel)

end Stencil.Directive
