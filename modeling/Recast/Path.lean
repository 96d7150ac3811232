import Recast.Text.Quoted
import Recast.Text.Search

/-!
# Paths

Places in the file tree as they are written, and what stands at them. Empty steps and steps that
stay where they are do not belong to a path; steps back do.
-/

set_option autoImplicit false

namespace Recast

/-- A place in the file tree. The anchor is empty for places that are given from where one is. -/
structure Path where
  anchor : String := ""
  parts : List String := []
  deriving DecidableEq, Repr

namespace Path

def ofString (s : String) : Path :=
  let slashes := (s.toList.takeWhile (· = '/')).length
  -- Exactly two slashes in front are an anchor of their own.
  { anchor := if slashes = 0 then "" else if slashes = 2 then "//" else "/"
    parts := (Text.split '/' s).filter fun part => part ≠ "" ∧ part ≠ "." }

/-- The path in text. The place where one is has a name of its own. -/
def toString (p : Path) : String :=
  match p.anchor ++ Text.join "/" p.parts with
  | "" => "."
  | s => s

def name (p : Path) : String := p.parts.getLastD ""

/-- The place above. Nothing is above the start of a path. -/
def parent (p : Path) : Path := { p with parts := p.parts.dropLast }

/-- A path from another one. Anchored paths start anew. -/
def join (p q : Path) : Path :=
  if q.anchor = "" then { p with parts := p.parts ++ q.parts } else q

def child (p : Path) (name : String) : Path := p.join (ofString name)

/-- The path and all places above it, nearest first. -/
def ascent (p : Path) : List Path :=
  (List.range (p.parts.length + 1)).map fun n =>
    { p with parts := p.parts.take (p.parts.length - n) }

def flattenFrom (done : List String) : List String → List String
  | [] => done
  | ".." :: rest => flattenFrom done.dropLast rest
  | part :: rest => flattenFrom (done ++ [part]) rest

def flatten (p : Path) : Path := { p with parts := flattenFrom [] p.parts }

end Path

inductive Entry where
  | missing
  /-- A file stands on the way. -/
  | blocked
  | directory
  | file (text : String)
  deriving DecidableEq, Repr

namespace Entry

def isPresent : Entry → Bool
  | missing | blocked => false
  | directory | file _ => true

def isDirectory : Entry → Bool
  | directory => true
  | _ => false

/-- The text of a file, or why there is none. -/
def read (entry : Entry) (p : Path) : Except String String :=
  let name := Text.quoted p.toString
  match entry with
  | file text => .ok text
  | missing => .error ("[Errno 2] No such file or directory: " ++ name)
  | blocked => .error ("[Errno 20] Not a directory: " ++ name)
  | directory => .error ("[Errno 21] Is a directory: " ++ name)

end Entry

structure Files where
  look : Path → Entry
  /-- The anchored path to a place, without steps back. -/
  resolve : Path → Path

end Recast
