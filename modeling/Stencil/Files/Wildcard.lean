import Stencil.Files.Tree

/-!
# Wildcards

In a pattern a star stands for any characters, a question mark for one, and brackets for one of
those listed in them, or for none of those after an exclamation mark.  Between slashes a pattern
describes one name; a name that begins with a point is described only by a pattern that does so
too.
-/

namespace Stencil.Files

open Stencil.Text

namespace Wildcard

inductive Part where
  | anyRun
  | anyOne
  | one (c : Char)
  | oneOf (negated : Bool) (ranges : List (Char × Char))

def rangesOf : List Char → List (Char × Char)
  | low :: '-' :: high :: rest => (low, high) :: rangesOf rest
  | c :: rest => (c, c) :: rangesOf rest
  | [] => []

/-- The list in brackets after the opening one, and what follows the closing one.  A closing
bracket that comes first is listed itself. -/
def bracketed? (text : List Char) : Option (Part × List Char) :=
  let (negated, body) :=
    match text with
    | '!' :: rest => (true, rest)
    | _ => (false, text)
  let (first, body) :=
    match body with
    | ']' :: rest => ([']'], rest)
    | _ => ([], body)
  match splitFirst? [']'] body with
  | some (listed, rest) => some (.oneOf negated (rangesOf (first ++ listed)), rest)
  | none => none

/-- The parts of a pattern.  An opening bracket without a closing one stands for itself. -/
def partsOf (fuel : Nat) (pattern : List Char) : List Part :=
  match fuel, pattern with
  | 0, _ | _, [] => []
  | fuel + 1, c :: rest =>
    match c with
    | '*' => .anyRun :: partsOf fuel rest
    | '?' => .anyOne :: partsOf fuel rest
    | '[' =>
      match bracketed? rest with
      | some (part, rest) => part :: partsOf fuel rest
      | none => .one c :: partsOf fuel rest
    | _ => .one c :: partsOf fuel rest

def Part.admits (part : Part) (c : Char) : Bool :=
  match part with
  | .anyRun | .anyOne => true
  | .one d => c == d
  | .oneOf negated ranges =>
    ranges.any (fun (low, high) => low ≤ c && c ≤ high) != negated

def admits : List Part → List Char → Bool
  | [], text => text.isEmpty
  | .anyRun :: parts, [] => admits parts []
  | .anyRun :: parts, c :: text => admits parts (c :: text) || admits (.anyRun :: parts) text
  | _ :: _, [] => false
  | part :: parts, c :: text => part.admits c && admits parts text
termination_by parts text => (parts.length, text.length)

def isPattern (text : List Char) : Bool :=
  text.any fun c => c == '*' || c == '?' || c == '['

def isHidden (name : List Char) : Bool :=
  name.head? == some '.'

def describes (pattern name : List Char) : Bool :=
  (isHidden pattern || !isHidden name) && admits (partsOf pattern.length pattern) name

end Wildcard

namespace Tree

def namesIn (tree : Tree) (place : Place) : List (List Char) :=
  let below := (tree.entries.map Prod.fst ++ [tree.home]).filterMap fun found =>
    if place.isPrefixOf found then (found.drop place.length).head? else none
  below.eraseDups

def joinText (directory name : List Char) : List Char :=
  if directory.isEmpty || directory.getLast? == some '/' then directory ++ name
  else directory ++ '/' :: name

/-- The names in a directory that a pattern describes.  Where there is no directory there are
none. -/
def described (tree : Tree) (directory pattern : List Char) (onlyDirectories : Bool) :
    Except Problem (List (List Char)) :=
  match tree.locate (Path.ofText directory) with
  | .error .nullCharacter => .error .nullCharacter
  | .error _ => .ok []
  | .ok place =>
    .ok ((tree.namesIn place).filter fun name =>
      Wildcard.describes pattern name && (!onlyDirectories || tree.isDirectory (place ++ [name])))

/-- Something is at the path of a name in a directory.  Without a name it is the directory. -/
def holds (tree : Tree) (directory name : List Char) : Bool :=
  if name.isEmpty then tree.kindAt? directory == some .directory
  else (tree.kindAt? (joinText directory name)).isSome

/-- The paths that a pattern describes; `fuel` bounds the number of slashes. -/
def describedPaths (tree : Tree) (fuel : Nat) (pattern : List Char) (onlyDirectories : Bool) :
    Except Problem (List (List Char)) :=
  match fuel with
  | 0 => .ok []
  | fuel + 1 =>
    let directory := directoryText pattern
    let name := lastName pattern
    if !Wildcard.isPattern pattern then
      .ok (if tree.holds directory name then [pattern] else [])
    else do
      -- Of what the directory part describes, only directories are looked into.
      let directories ←
        if Wildcard.isPattern directory then tree.describedPaths fuel directory true
        else .ok [directory]
      let paths ← directories.mapM fun found =>
        if Wildcard.isPattern name then
          (tree.described found name onlyDirectories).map (·.map (joinText found))
        else .ok (if tree.holds found name then [joinText found name] else [])
      return paths.flatten

def select (tree : Tree) (pattern : List Char) : Except Problem (List (List Char)) :=
  (tree.describedPaths (pattern.length + 1) pattern false).map TemplateFault.sortTexts

end Tree

end Stencil.Files
