import Stencil.Text.Search

/-!
# Paths

A path is absolute or relative and consists of the names between its slashes.  Empty names and
single dots mean nothing and are dropped; double dots are kept until a path is resolved.
-/

namespace Stencil.Files

open Stencil.Text

structure Path where
  rooted : Bool
  names : List (List Char)
  deriving DecidableEq

namespace Path

def isIdleName (name : List Char) : Bool :=
  name.isEmpty || name == ['.']

def ofText (text : List Char) : Path :=
  ⟨text.head? == some '/', (splitAll ['/'] text).filter (!isIdleName ·)⟩

def text (path : Path) : List Char :=
  let joined := List.intercalate ['/'] path.names
  if path.rooted then '/' :: joined
  else if path.names.isEmpty then ['.']
  else joined

/-- The second path as seen from the first one. -/
def join (base path : Path) : Path :=
  if path.rooted then path else ⟨base.rooted, base.names ++ path.names⟩

def parent (path : Path) : Path :=
  { path with names := path.names.dropLast }

def name (path : Path) : List Char :=
  path.names.getLast?.getD []

def hasNull (path : Path) : Bool :=
  path.names.any (·.contains '\x00')

/-- The path with every double dot resolved against the name before it.  Above the top there is
nothing but the top. -/
def resolveNames (above : List (List Char)) : List (List Char) → List (List Char)
  | [] => above.reverse
  | name :: rest =>
    if name == ['.', '.'] then resolveNames (above.drop 1) rest
    else resolveNames (name :: above) rest

end Path

def lastName (text : List Char) : List Char :=
  match splitLast? ['/'] text with
  | some (_, name) => name
  | none => text

/-- What stands before the last slash.  The slashes at its own end are dropped, unless there is
nothing else. -/
def directoryText (text : List Char) : List Char :=
  match lastIndexOf? ['/'] text with
  | none => []
  | some position =>
    let head := text.take (position + 1)
    if head.all (· == '/') then head else (head.reverse.dropWhile (· == '/')).reverse

end Stencil.Files
