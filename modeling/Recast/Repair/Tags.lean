import Recast.Catalog.Primitives
import Recast.Markup.Node
import Recast.Target
import Recast.Text.Substitution

/-!
# Dynamic tags

Wrapped primitives without a known tag are written as dynamic components, whose closing tags are all
alike. Substituting native tags for them therefore keeps a stack of the dynamic tags that are open:
a closing tag closes the innermost one, whatever that stands for.
-/

set_option autoImplicit false

namespace Recast.Repair

open Recast.Text

def dynamicTag : Target → List Char
  | .svelte => "svelte:component".toList
  | .vue => "component".toList

def isNameChar (c : Char) : Bool := isWord c || c == '$' || c == '.'

def nameRun? (cs : List Char) : Option (List Char × List Char) :=
  let run := cs.takeWhile isNameChar
  if run = [] then none else some (run, cs.dropWhile isNameChar)

/-- Recognizes the attribute that names the component, with the blanks in front of it. -/
def nameAttribute : Target → Rule (List Char)
  | .svelte => fun previous cs => do
    let rest ← afterWord? "this=\x7b" cs
    guard (cs.head?.any isBlank || !previous.any isWord)
    let (name, rest) ← nameRun? (rest.dropWhile isBlank)
    let rest ← afterWord? "\x7d" rest
    return (name, rest)
  | .vue => fun _ cs => do
    let cs := cs.dropWhile isBlank
    let rest ← after? ":is=\"".toList ((after? "v-bind".toList cs).getD cs)
    let (name, rest) ← nameRun? rest
    let rest ← after? ['"'] rest
    return (name, rest)

/-- The inside of a tag up to the bracket that ends it, and the rest. -/
def upToTagEnd? (depth : Nat) (quote : Option Char) : List Char → Option (List Char × List Char)
  | [] => none
  | c :: cs =>
    let more (depth : Nat) (quote : Option Char) :=
      (upToTagEnd? depth quote cs).map fun r => (c :: r.1, r.2)
    match quote with
    | some q => more depth (if c = q then none else quote)
    | none =>
      if c = '"' ∨ c = '\'' then more depth (some c)
      else if c = '\x7b' then more (depth + 1) none
      else if c = '\x7d' then more (depth - 1) none
      -- Brackets in quotes and braces do not end a tag.
      else if c = '>' ∧ depth = 0 then some ([], cs)
      else more depth none

/-- A piece of text that concerns dynamic tags. -/
inductive Mark where
  | closing
  /-- An opening tag, with what stands between the tag's name and the bracket. -/
  | opening (content : List Char)
  /-- An opening tag that never ends. It takes the rest of the text. -/
  | endless
  deriving DecidableEq, Repr

def endsTagName (c : Char) : Bool :=
  c == ' ' || c == '\t' || c == '\n' || c == '\r' || c == '>' || c == '/'

def markRule (target : Target) : Rule Mark := fun _ cs =>
  match (after? ("</".toList ++ dynamicTag target) cs).bind (afterWord? ">") with
  | some rest => some (.closing, rest)
  | none =>
    match (after? ('<' :: dynamicTag target) cs).filter (·.head?.all endsTagName) with
    | none => none
    | some rest =>
      match upToTagEnd? 0 none rest with
      | some (content, rest) => some (.opening content, rest)
      | none => some (.endless, [])

structure Repaired where
  text : List Char
  /-- How many tags were substituted. -/
  replaced : Nat := 0
  /-- How many closing tags had nothing to close. -/
  unmatched : Nat := 0
  deriving DecidableEq, Repr

def Repaired.changed (r : Repaired) : Bool := 0 < r.replaced

structure Opening where
  /-- The native tag that it stands for, if the table has one. -/
  tag : Option (List Char)
  /-- The attributes without the one that names the component. -/
  attributes : List Char
  closesItself : Bool
  deriving DecidableEq, Repr

def readOpening (target : Target) (table : Assoc String) (content : List Char) : Opening :=
  let trimmed := dropEndWhile isBlank content
  let closesItself := trimmed.getLast? == some '/'
  let content := if closesItself then trimmed.dropLast else content
  match cutHit? (nameAttribute target) content with
  | none => ⟨none, [], closesItself⟩
  | some (front, name, back) =>
    ⟨(table.get? (String.ofList name)).map String.toList, stripChars (front ++ back), closesItself⟩

def nativeOpening (tag attributes : List Char) (closesItself : Bool) : List Char :=
  let attributes := if attributes = [] then [] else ' ' :: attributes
  let isVoid := Markup.voidTags.contains (String.ofList tag)
  '<' :: tag ++ attributes ++ (if closesItself || isVoid then " />".toList else ['>'])

/-- What is written for a closing tag, given the open dynamic tags, and whether it had something to
close. -/
def closeTag (raw : List Char) : List (Option (List Char)) → List Char × Bool
  | [] => (raw, false)
  | none :: _ => (raw, true)
  | some tag :: _ => ("</".toList ++ tag ++ ['>'], true)

/-- Substitutes native tags in a marked text. The stack holds the open dynamic tags, innermost
first, each with its native tag if it was substituted. -/
def substituteFrom (target : Target) (table : Assoc String) (stack : List (Option (List Char))) :
    List (Segment Mark) → Repaired
  | [] => { text := [] }
  | .plain t :: rest =>
    let r := substituteFrom target table stack rest
    { r with text := t ++ r.text }
  | .hit raw .closing :: rest =>
    let r := substituteFrom target table stack.tail rest
    let (text, matched) := closeTag raw stack
    { r with text := text ++ r.text, unmatched := if matched then r.unmatched else r.unmatched + 1 }
  | .hit raw .endless :: rest =>
    let r := substituteFrom target table stack rest
    { r with text := raw ++ r.text }
  | .hit raw (.opening content) :: rest =>
    let o := readOpening target table content
    let r := substituteFrom target table (if o.closesItself then stack else o.tag :: stack) rest
    match o.tag with
    | none => { r with text := raw ++ r.text }
    | some tag =>
      { r with
        text := nativeOpening tag o.attributes o.closesItself ++ r.text
        replaced := r.replaced + 1 }

def substituteTags (text : List Char) (target : Target) (table : Assoc String) : Repaired :=
  substituteFrom target table [] (segments (markRule target) text)

end Recast.Repair
