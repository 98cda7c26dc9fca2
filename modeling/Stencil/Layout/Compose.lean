import Stencil.Layout.Directories
import Stencil.Text.Blank
import Stencil.Text.Cut
import Stencil.Warning

/-!
# Composing layouts

A source includes layouts by `{{ layout:name }}`, which looks in the current directory, and by
`{{ baselayout:name }}`, which looks in the base directory and stays there.  Layouts may include
layouts in turn, up to a depth at which an inclusion is taken for a cycle and left out.
-/

namespace Stencil.Layout

open Stencil.Text Stencil.Files

/-- The inclusion that begins a text: the name behind a word and a colon. -/
def inclusion? (word text : List Char) : Option (Hit (List Char)) := do
  let rest ← after? ['{', '{'] text
  let rest ← after? word (skipBlanks rest)
  let rest ← after? [':'] (skipBlanks rest)
  let rest := skipBlanks rest
  let name := rest.takeWhile fun c => c != '}' && !isBlank c
  if name.isEmpty then none
  else
    let rest ← after? ['}', '}'] (skipBlanks (rest.drop name.length))
    return ⟨text.length - rest.length, name⟩

structure Composer where
  places : Places
  tree : Tree
  /-- The depth at which inclusions end. -/
  limit : Int

namespace Composer

/-- Compose a source, or the layout of a name if the source is empty.  `remaining` counts the
levels down to the limit. -/
def composeWithin (composer : Composer) (remaining : Nat) (layout source : List Char)
    (base : Bool) : Logged Failure (List Char) :=
  match remaining with
  | 0 => do
    Logged.warn (.layoutDepth composer.limit layout)
    return []
  | remaining + 1 => do
    let source ←
      if source.isEmpty then
        Logged.ofExcept (composer.places.layoutSource composer.tree layout base)
      else pure source
    let source ←
      fill (fun name => composer.composeWithin remaining name [] base)
        (cut (inclusion? "layout".toList) source)
    -- What the other inclusions brought in is searched as well.
    fill (fun name => composer.composeWithin remaining name [] true)
      (cut (inclusion? "baselayout".toList) source)

/-- Compose from a depth on. -/
def compose (composer : Composer) (layout source : List Char) (depth : Int) (base : Bool) :
    Logged Failure (List Char) :=
  composer.composeWithin (composer.limit - depth).toNat layout source base

end Composer

end Stencil.Layout
