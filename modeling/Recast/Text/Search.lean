/-!
# Searching and cutting text

Substring search, replacement and splitting over lists of characters, with thin versions on
strings. Every search finds the leftmost occurrence.
-/

set_option autoImplicit false

namespace Recast.Text

/-- What is left of `cs` after the leading `p`, if `cs` starts with it. -/
def after? : List Char → List Char → Option (List Char)
  | [], cs => some cs
  | _ :: _, [] => none
  | p :: ps, c :: cs => if p = c then after? ps cs else none

/-- The text before and after the first occurrence of `p`. -/
def cut? (p : List Char) : List Char → Option (List Char × List Char)
  | [] => if p = [] then some ([], []) else none
  | c :: cs =>
    match after? p (c :: cs) with
    | some rest => some ([], rest)
    | none => (cut? p cs).map fun parts => (c :: parts.1, parts.2)

/-- What a recognizer finds at the leftmost place where it finds anything. -/
def firstMatch? {α : Type} (recognize : List Char → Option α) : List Char → Option α
  | [] => recognize []
  | c :: cs =>
    match recognize (c :: cs) with
    | some a => some a
    | none => firstMatch? recognize cs

def occurs (p cs : List Char) : Bool := (cut? p cs).isSome

/-- Replaces occurrences from left to right. `skip` counts the characters of a match still to be
passed over; the pattern `p` is not empty. -/
def replaceFrom (p new : List Char) : Nat → List Char → List Char
  | _, [] => []
  | skip + 1, _ :: cs => replaceFrom p new skip cs
  | 0, c :: cs =>
    match after? p (c :: cs) with
    | some _ => new ++ replaceFrom p new (p.length - 1) cs
    | none => c :: replaceFrom p new 0 cs

def replaceChars (p new cs : List Char) : List Char :=
  -- An empty pattern occurs before each character and at the end.
  if p = [] then cs.flatMap (fun c => new ++ [c]) ++ new else replaceFrom p new 0 cs

def splitChar (sep : Char) : List Char → List (List Char)
  | [] => [[]]
  | c :: cs =>
    if c = sep then [] :: splitChar sep cs
    else match splitChar sep cs with
      | [] => [[c]]
      | part :: parts => (c :: part) :: parts

def joinChars (sep : List Char) : List (List Char) → List Char
  | [] => []
  | [part] => part
  | part :: parts => part ++ sep ++ joinChars sep parts

def startsWith (p s : String) : Bool := (after? p.toList s.toList).isSome

def endsWith (p s : String) : Bool := (after? p.toList.reverse s.toList.reverse).isSome

def contains (p s : String) : Bool := occurs p.toList s.toList

def replace (p new s : String) : String :=
  String.ofList (replaceChars p.toList new.toList s.toList)

def split (sep : Char) (s : String) : List String :=
  (splitChar sep s.toList).map String.ofList

def join (sep : String) : List String → String
  | [] => ""
  | [part] => part
  | part :: parts => part ++ sep ++ join sep parts

def drop (n : Nat) (s : String) : String := String.ofList (s.toList.drop n)

end Recast.Text
