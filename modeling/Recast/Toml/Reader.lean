import Recast.Text.Quoted
import Recast.Text.Search

/-!
# Reading documents of tables

What can be wrong with a document, where, and the small steps that all readers are made of. A reader
takes characters off the front of the text; a fault remembers how many were left.
-/

set_option autoImplicit false

namespace Recast.Toml

open Recast.Text

/-- A name with its parts, outermost first. -/
abbrev Key := List String

def showKey : Key → String
  | [part] => "(" ++ quoted part ++ ",)"
  | key => "(" ++ join ", " (key.map quoted) ++ ")"

inductive Cause where
  | invalidStatement
  | lineGoesOn
  | missing (text : String)
  | invalidCharacter (c : Char)
  | illegalCharacter (c : Char)
  | tableNotClosed
  | tableListNotClosed
  | declaredTwice (key : Key)
  | immutable (key : Key)
  | redefined (key : Key)
  | overwritten
  | noEquals
  | invalidKey
  | arrayNotClosed
  | inlineTableNotClosed
  | duplicateKey (part : String)
  | unescaped
  | invalidHex
  | notACharacter
  | textNotClosed
  | invalidDate
  | invalidValue
  deriving DecidableEq, Repr

def Cause.message : Cause → String
  | invalidStatement => "Invalid statement"
  | lineGoesOn => "Expected newline or end of document after a statement"
  | missing text => "Expected " ++ quoted text
  | invalidCharacter c => "Found invalid character " ++ quoted c.toString
  | illegalCharacter c => "Illegal character " ++ quoted c.toString
  | tableNotClosed => "Expected ']' at the end of a table declaration"
  | tableListNotClosed => "Expected ']]' at the end of an array declaration"
  | declaredTwice key => "Cannot declare " ++ showKey key ++ " twice"
  | immutable key => "Cannot mutate immutable namespace " ++ showKey key
  | redefined key => "Cannot redefine namespace " ++ showKey key
  | overwritten => "Cannot overwrite a value"
  | noEquals => "Expected '=' after a key in a key/value pair"
  | invalidKey => "Invalid initial character for a key part"
  | arrayNotClosed => "Unclosed array"
  | inlineTableNotClosed => "Unclosed inline table"
  | duplicateKey part => "Duplicate inline table key " ++ quoted part
  | unescaped => "Unescaped '\\' in a string"
  | invalidHex => "Invalid hex value"
  | notACharacter => "Escaped character is not a Unicode scalar value"
  | textNotClosed => "Unterminated string"
  | invalidDate => "Invalid date or datetime"
  | invalidValue => "Invalid value"

/-- What is wrong, and how many characters were left when it was found. -/
structure Fault where
  cause : Cause
  left : Nat
  deriving DecidableEq, Repr

/-- What is wrong with a text and where, counted in lines and columns from one. -/
def Fault.describe (text : List Char) (f : Fault) : String :=
  let before := text.take (text.length - f.left)
  let place :=
    if f.left = 0 then "end of document"
    else
      let line := before.count '\n' + 1
      let column := (before.reverse.takeWhile (· ≠ '\n')).length + 1
      "line " ++ toString line ++ ", column " ++ toString column
  f.cause.message ++ " (at " ++ place ++ ")"

/-- A reader takes characters off the front of a text. -/
abbrev Reader := StateT (List Char) (Except Fault)

namespace Reader

def fail {α : Type} (cause : Cause) : Reader α := fun cs => .error ⟨cause, cs.length⟩

def peek? : Reader (Option Char) := fun cs => .ok (cs.head?, cs)

def take (n : Nat) : Reader (List Char) := fun cs => .ok (cs.take n, cs.drop n)

def takeWhile (p : Char → Bool) : Reader (List Char) := fun cs =>
  .ok (cs.takeWhile p, cs.dropWhile p)

def skipWhile (p : Char → Bool) : Reader Unit := fun cs => .ok ((), cs.dropWhile p)

/-- Whether the text starts with `s`, which is taken off then. -/
def accept (s : String) : Reader Bool := fun cs =>
  match after? s.toList cs with
  | some rest => .ok (true, rest)
  | none => .ok (false, cs)

/-- Takes off what stands before the first `stop`, and `stop`. -/
def takeUntil (stop : String) (isIllegal : Char → Bool) : Reader (List Char) := fun cs =>
  match cut? stop.toList cs with
  | none => .error ⟨.missing stop, 0⟩
  | some (inside, rest) =>
    match inside.dropWhile (!isIllegal ·) with
    | [] => .ok (inside, rest)
    | c :: _ =>
      .error ⟨.invalidCharacter c, cs.length - (inside.takeWhile (!isIllegal ·)).length⟩

/-- Reads what a recognizer finds at the front, if anything. -/
def recognized? {α : Type} (recognize : List Char → Option (α × List Char)) :
    Reader (Option α) := fun cs =>
  match recognize cs with
  | some (a, rest) => .ok (some a, rest)
  | none => .ok (none, cs)

/-- Runs a reader whose steps are bounded by the length of the text. -/
def bounded {α : Type} (reader : Nat → Reader α) : Reader α := fun cs => reader (cs.length + 1) cs

end Reader

/-! ## Classes of characters -/

def isSpace (c : Char) : Bool := c = ' ' || c = '\t'

def isFiller (c : Char) : Bool := isSpace c || c = '\n'

/-- Control characters except the tab. They stand nowhere but at the end of a line. -/
def isControl (c : Char) : Bool := (c.toNat < 32 && c ≠ '\t') || c.toNat = 127

/-- The characters of a name that needs no quotes. -/
def isBare (c : Char) : Bool := c.isAlphanum || c = '-' || c = '_'

def skipComment : Reader Unit := do
  if ← Reader.accept "#" then
    Reader.skipWhile (!isControl ·)
    match ← Reader.peek? with
    | none | some '\n' => return
    | some c => Reader.fail (.invalidCharacter c)

def skipFillerFrom : Nat → Reader Unit
  | 0 => return
  | n + 1 => do
    Reader.skipWhile isFiller
    if (← Reader.peek?) = some '#' then
      skipComment
      skipFillerFrom n

/-- Passes over blanks, line ends and comments. -/
def skipFiller : Reader Unit := Reader.bounded skipFillerFrom

end Recast.Toml
