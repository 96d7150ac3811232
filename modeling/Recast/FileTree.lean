import Recast.Path

/-!
# File trees in memory

A file tree that is given by the texts of its files. A place is a directory if some file lies below
it. Walking follows steps back only through directories that are there.
-/

set_option autoImplicit false

namespace Recast

/-- The texts of files by the parts of their paths from the root of the tree. -/
abbrev FileTree := List (List String × String)

namespace FileTree

def ofTexts (texts : List (String × String)) : FileTree :=
  texts.map fun entry => ((Path.ofString entry.1).parts, entry.2)

/-- What stands at a place that is given without steps back. -/
def entryAt (tree : FileTree) (place : List String) : Entry :=
  match tree.lookup place with
  | some text => .file text
  | none =>
    if place.isEmpty || tree.any fun entry => place.isPrefixOf entry.1 then .directory else .missing

/-- What stands where steps from a place lead to. -/
def walk (tree : FileTree) (place : List String) : List String → Entry
  | [] => tree.entryAt place
  | part :: rest =>
    match tree.entryAt place with
    | .directory =>
      if part ≠ ".." then walk tree (place ++ [part]) rest
      else if !place.isEmpty then walk tree place.dropLast rest
      -- Above the root there is nothing but the directories on the way to it.
      else if rest.all (· = "..") then .directory
      else .missing
    | .file _ => .blocked
    | entry => entry

/-- The tree seen from its root, which goes by the given path. -/
def files (tree : FileTree) (root : Path) : Files where
  look p :=
    if p.parts.take root.parts.length = root.parts ∧ p.anchor = root.anchor then
      tree.walk [] (p.parts.drop root.parts.length)
    else if p.anchor = "" then tree.walk [] p.parts
    -- Other anchored paths lead elsewhere.
    else .missing
  resolve p := (root.join p).flatten

def below? (root p : Path) : Option (List String) :=
  let p := (root.join p).flatten
  if p.parts.take root.parts.length = root.parts ∧ p.anchor = root.anchor then
    some (p.parts.drop root.parts.length)
  else none

end FileTree

end Recast
