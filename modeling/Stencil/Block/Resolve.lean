import Stencil.Block.Attributes
import Stencil.Directive.HostCode
import Stencil.Registry
import Stencil.Warning

/-!
# Resolving blocks

A block is a pair of tags with something between them.  The innermost pair is resolved first: its
handler gets what lies between the tags, the attributes of the opening tag and the context, and its
result takes the place of the whole pair.  Results are not looked through again.  The tags that are
open are kept on a stack, so that blocks may be nested as deeply as the text allows.
-/

namespace Stencil.Block

open Stencil.Data Stencil.Directive

/-- What resolves a pair of tags.  A result of null stands for no text. -/
abbrev Handler := List Char → Attributes → Option Value → Except CallFailure Value

inductive Failure where
  | fault (fault : TemplateFault)
  | call (failure : CallFailure)
  deriving DecidableEq

/-- Who resolves blocks, and whether a block without a handler is a fault. -/
structure Resolver where
  handlers : Registry Handler
  strict : Bool
  context : Option Value

structure Opening where
  token : Token
  name : List Char
  attributes : Option (List Char)

/-- An opening tag that waits for its closing tag, with what was written before it, in reverse. -/
structure Frame where
  opening : Opening
  outside : List (List Char)

/-- The text that takes the place of a pair of tags. -/
def Resolver.apply (resolver : Resolver) (opening : Opening) (inner : List Char)
    (closer : Token) : Logged Failure (List Char) :=
  match resolver.handlers.get? opening.name with
  | some handler =>
    match handler inner (Block.attributes opening.attributes) resolver.context with
    | .ok .null => pure []
    | .ok value => pure value.shown
    | .error failure => throw (.call failure)
  | none =>
    if resolver.strict then
      throw (.fault (.unknownBlock opening.name (some (opening.token.start : Int))))
    else do
      Logged.warn (.unhandledBlock opening.name)
      pure (opening.token.text ++ inner ++ closer.text)

section

variable {m : Type → Type} [Monad m] [MonadExceptOf Failure m]

/-- Resolve the tokens that follow inside the open frames, every pair of tags by `apply`; `written`
is what was written since the innermost frame, in reverse. -/
def resolveFrom (apply : Opening → List Char → Token → m (List Char)) (frames : List Frame)
    (written : List (List Char)) : List Token → m (List Char)
  | [] =>
    match frames with
    | [] => pure written.reverse.flatten
    | frame :: _ => throw (.fault (frame.opening.token.fault .unclosedBlock))
  | token :: rest =>
    match token.meaning with
    | .blockOpen name attributes =>
      resolveFrom apply (⟨⟨token, name, attributes⟩, written⟩ :: frames) [] rest
    | .blockClose name =>
      match frames with
      | [] => throw (.fault (token.fault .unmatchedBlock))
      | frame :: outer =>
        if name = frame.opening.name then do
          let result ← apply frame.opening written.reverse.flatten token
          resolveFrom apply outer (result :: frame.outside) rest
        else throw (.fault (token.fault (.crossedBlock frame.opening.name)))
    | _ => resolveFrom apply frames (token.text :: written) rest

def resolveBy (apply : Opening → List Char → Token → m (List Char)) (text : List Char) :
    m (List Char) :=
  match tokens text with
  | .error fault => throw (.fault fault)
  | .ok found =>
    if found.any Token.isBlockTag then resolveFrom apply [] [] found else pure text

end

def Resolver.resolve (resolver : Resolver) (text : List Char) : Logged Failure (List Char) :=
  resolveBy resolver.apply text

end Stencil.Block
