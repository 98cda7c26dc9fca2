import Stencil.Block.Resolve
import Stencil.Proofs.Directive.Partition
import Stencil.Proofs.Logged

/-!
# Nested pairs of tags

The opening and closing tags of a text pair up like brackets, each closing tag carrying the name of
the tag that it closes, and a forest is such a pairing.  Resolving the tokens of a forest resolves
its pairs, the inner ones first and otherwise from left to right; what can be resolved at all is the
tokens of a forest.
-/

namespace Stencil.Block

open Stencil.Directive

/-- Tags in pairs, with what stands between and around them. -/
inductive Forest where
  | empty
  | leaf (token : Token) (htoken : token.isBlockTag = false) (rest : Forest)
  | pair (opening : Opening) (closer : Token)
      (hopening : opening.token.meaning = .blockOpen opening.name opening.attributes)
      (hcloser : closer.meaning = .blockClose opening.name) (inner rest : Forest)

namespace Forest

def tokens : Forest → List Token
  | empty => []
  | leaf token _ rest => token :: rest.tokens
  | pair opening closer _ _ inner rest =>
    opening.token :: (inner.tokens ++ closer :: rest.tokens)

def names : Forest → List (List Char)
  | empty => []
  | leaf _ _ rest => rest.names
  | pair opening _ _ _ inner rest => opening.name :: (inner.names ++ rest.names)

end Forest

/-! ## The steps of resolving -/

section

variable {m : Type → Type} [Monad m] [MonadExceptOf Failure m]
variable (apply : Opening → List Char → Token → m (List Char))
variable {token : Token} (frames : List Frame) (written : List (List Char)) (rest : List Token)

theorem resolveFrom_leaf (htoken : token.isBlockTag = false) :
    resolveFrom apply frames written (token :: rest) =
      resolveFrom apply frames (token.text :: written) rest := by
  unfold Token.isBlockTag at htoken
  rw [resolveFrom]
  split <;> simp_all

theorem resolveFrom_open
    {name : List Char} {attributes : Option (List Char)}
    (htoken : token.meaning = .blockOpen name attributes) :
    resolveFrom apply frames written (token :: rest) =
      resolveFrom apply (⟨⟨token, name, attributes⟩, written⟩ :: frames) [] rest := by
  simp only [resolveFrom, htoken]

theorem resolveFrom_close
    (frame : Frame) (htoken : token.meaning = .blockClose frame.opening.name) :
    resolveFrom apply (frame :: frames) written (token :: rest) =
      apply frame.opening written.reverse.flatten token >>= fun result =>
        resolveFrom apply frames (result :: frame.outside) rest := by
  simp only [resolveFrom, htoken, if_true]

theorem resolveFrom_unclosed (frame : Frame) :
    resolveFrom apply (frame :: frames) written [] =
      throw (.fault (frame.opening.token.fault .unclosedBlock)) := rfl

theorem resolveFrom_unmatched
    {name : List Char} (htoken : token.meaning = .blockClose name) :
    resolveFrom apply [] written (token :: rest) =
      throw (.fault (token.fault .unmatchedBlock)) := by
  simp only [resolveFrom, htoken]

theorem resolveFrom_crossed
    {name : List Char} {frame : Frame} (htoken : token.meaning = .blockClose name)
    (hname : name ≠ frame.opening.name) :
    resolveFrom apply (frame :: frames) written (token :: rest) =
      throw (.fault (token.fault (.crossedBlock frame.opening.name))) := by
  simp only [resolveFrom, htoken, if_neg hname]

theorem resolveFrom_leaves
    {found : List Token} (hfound : ∀ token ∈ found, token.isBlockTag = false) :
    resolveFrom apply [] written found =
      pure (written.reverse.flatten ++ found.flatMap Token.text) := by
  induction found generalizing written with
  | nil => simp [resolveFrom]
  | cons token rest ih =>
      have htoken : token.isBlockTag = false := hfound token List.mem_cons_self
      have hrest : ∀ other ∈ rest, other.isBlockTag = false := fun other hother =>
        hfound other (List.mem_cons_of_mem token hother)
      rw [resolveFrom_leaf apply [] written rest htoken, ih _ hrest]
      simp

/-- A text without tags need not be gone through: it would be kept as it is. -/
theorem resolveBy_of_tokens
    {text : List Char} {found : List Token} (htext : Directive.tokens text = .ok found) :
    resolveBy apply text = resolveFrom apply [] [] found := by
  simp only [resolveBy, htext]
  split
  next => rfl
  next hleaves =>
    have hfound : ∀ token ∈ found, token.isBlockTag = false := by simpa using hleaves
    rw [resolveFrom_leaves apply [] hfound, (scanned_of_tokensFrom htext).flatMap_text]
    rfl

end

/-- An induction over tokens with the frames that are open before them.  A closing tag closes the
innermost frame, or it is at fault. -/
theorem frame_induction
    {motive : List Frame → List Token → Prop} (finished : motive [] [])
    (unclosed : ∀ frame outer, motive (frame :: outer) [])
    (leaf : ∀ frames token rest,
      token.isBlockTag = false → motive frames rest → motive frames (token :: rest))
    (opening : ∀ frames token rest name attributes,
      token.meaning = .blockOpen name attributes →
        (∀ outside, motive (⟨⟨token, name, attributes⟩, outside⟩ :: frames) rest) →
          motive frames (token :: rest))
    (closing : ∀ frame outer token rest,
      token.meaning = .blockClose frame.opening.name → motive outer rest →
        motive (frame :: outer) (token :: rest))
    (unmatched : ∀ token rest name,
      token.meaning = .blockClose name → motive [] (token :: rest))
    (crossed : ∀ frame outer token rest name,
      token.meaning = .blockClose name → name ≠ frame.opening.name →
        motive (frame :: outer) (token :: rest))
    (frames : List Frame) (found : List Token) : motive frames found := by
  induction found generalizing frames with
  | nil =>
      cases frames with
      | nil => exact finished
      | cons frame outer => exact unclosed frame outer
  | cons token rest ih =>
      cases hmeaning : token.meaning with
      | blockOpen name attributes =>
          exact opening frames token rest name attributes hmeaning fun _ => ih _
      | blockClose name =>
          cases frames with
          | nil => exact unmatched token rest name hmeaning
          | cons frame outer =>
              by_cases hname : name = frame.opening.name
              · exact closing frame outer token rest (hmeaning.trans (by rw [hname])) (ih outer)
              · exact crossed frame outer token rest name hmeaning hname
      | _ =>
          have htoken : token.isBlockTag = false := by simp only [Token.isBlockTag, hmeaning]
          exact leaf frames token rest htoken (ih frames)

/-! ## Forests are resolved from the inside -/

section

variable {m : Type → Type} [Monad m] [LawfulMonad m] [MonadExceptOf Failure m]
variable (apply : Opening → List Char → Token → m (List Char))

/-- Resolve the pairs of a forest one after the other, what lies between two tags before the pair,
and keep what stands outside of pairs. -/
def Forest.resolve : Forest → m (List (List Char))
  | .empty => pure []
  | .leaf token _ rest => do
    let later ← rest.resolve
    pure (token.text :: later)
  | .pair opening closer _ _ inner rest => do
    let between ← inner.resolve
    let result ← apply opening between.flatten closer
    let later ← rest.resolve
    pure (result :: later)

theorem resolveFrom_forest
    (forest : Forest) (frames : List Frame) (written : List (List Char)) (rest : List Token) :
    resolveFrom apply frames written (forest.tokens ++ rest) =
      forest.resolve apply >>= fun pieces =>
        resolveFrom apply frames (pieces.reverse ++ written) rest := by
  induction forest generalizing frames written rest with
  | empty => simp [Forest.tokens, Forest.resolve]
  | leaf token htoken later ih =>
      rw [Forest.tokens, List.cons_append, resolveFrom_leaf apply frames written _ htoken, ih]
      simp [Forest.resolve]
  | pair opening closer hopening hcloser inner later ihInner ihLater =>
      have htokens : (Forest.pair opening closer hopening hcloser inner later).tokens ++ rest =
          opening.token :: (inner.tokens ++ closer :: (later.tokens ++ rest)) := by
        simp [Forest.tokens]
      rw [htokens, resolveFrom_open apply frames written _ hopening, ihInner]
      simp only [resolveFrom_close apply frames _ _ ⟨opening, written⟩ hcloser, ihLater,
        Forest.resolve, bind_assoc, pure_bind, List.append_nil, List.reverse_reverse,
        List.reverse_cons, List.append_assoc, List.singleton_append]

theorem resolveBy_of_forest
    {text : List Char} {forest : Forest} (htext : Directive.tokens text = .ok forest.tokens) :
    resolveBy apply text = forest.resolve apply >>= fun pieces => pure pieces.flatten := by
  have hforest := resolveFrom_forest apply forest [] [] []
  simp only [List.append_nil, resolveFrom, List.reverse_reverse] at hforest
  rw [resolveBy_of_tokens apply htext, hforest]

end

/-! ## What can be resolved -/

/-- The tokens close the open frames, the innermost one first, and go on as a forest. -/
def Completes : List Frame → List Token → Prop
  | [], rest => ∃ forest : Forest, forest.tokens = rest
  | frame :: outer, rest =>
      ∃ (inner : Forest) (closer : Token) (tail : List Token),
        rest = inner.tokens ++ closer :: tail ∧ closer.meaning = .blockClose frame.opening.name ∧
          Completes outer tail

theorem Completes.leaf
    {frames : List Frame} {token : Token} {rest : List Token} (htoken : token.isBlockTag = false)
    (hrest : Completes frames rest) : Completes frames (token :: rest) := by
  cases frames with
  | nil =>
      obtain ⟨forest, rfl⟩ := hrest
      exact ⟨.leaf token htoken forest, rfl⟩
  | cons frame outer =>
      obtain ⟨inner, closer, tail, rfl, hcloser, htail⟩ := hrest
      exact ⟨.leaf token htoken inner, closer, tail, rfl, hcloser, htail⟩

theorem Completes.pair
    {frames : List Frame} {opening : Opening} {outside : List (List Char)} {rest : List Token}
    (hrest : Completes (⟨opening, outside⟩ :: frames) rest)
    (hopening : opening.token.meaning = .blockOpen opening.name opening.attributes) :
    Completes frames (opening.token :: rest) := by
  obtain ⟨inner, closer, tail, rfl, hcloser, htail⟩ := hrest
  cases frames with
  | nil =>
      obtain ⟨forest, rfl⟩ := htail
      exact ⟨.pair opening closer hopening hcloser inner forest, rfl⟩
  | cons next outer =>
      obtain ⟨later, last, behind, rfl, hlast, hbehind⟩ := htail
      refine ⟨.pair opening closer hopening hcloser inner later, last, behind, ?_, hlast, hbehind⟩
      simp only [Forest.tokens, List.cons_append, List.append_assoc]

theorem completes_of_resolveFrom
    {apply : Opening → List Char → Token → Logged Failure (List Char)} {frames : List Frame}
    {written : List (List Char)} {found : List Token} {log later : List Warning}
    {result : List Char}
    (hresult : Logged.after log (resolveFrom apply frames written found) = (.ok result, later)) :
    Completes frames found := by
  induction frames, found using frame_induction generalizing written log with
  | finished => exact ⟨.empty, rfl⟩
  | unclosed frame outer => exact absurd hresult Logged.after_throw_ne_ok
  | leaf frames token rest htoken ih =>
      rw [resolveFrom_leaf apply frames written rest htoken] at hresult
      exact (ih hresult).leaf htoken
  | opening frames token rest name attributes hmeaning ih =>
      rw [resolveFrom_open apply frames written rest hmeaning] at hresult
      exact (ih _ hresult).pair hmeaning
  | closing frame outer token rest hmeaning ih =>
      rw [resolveFrom_close apply outer written rest frame hmeaning] at hresult
      obtain ⟨value, between, _, hrest⟩ := Logged.after_bind_eq_ok_iff.mp hresult
      exact ⟨.empty, token, rest, rfl, hmeaning, ih hrest⟩
  | unmatched token rest name hmeaning =>
      rw [resolveFrom_unmatched apply written rest hmeaning] at hresult
      exact absurd hresult Logged.after_throw_ne_ok
  | crossed frame outer token rest name hmeaning hname =>
      rw [resolveFrom_crossed apply outer written rest hmeaning hname] at hresult
      exact absurd hresult Logged.after_throw_ne_ok

end Stencil.Block
