import Recast.Number.Read
import Recast.Toml.Reader

/-!
# Quoted text

Text in double quotes, where a backslash escapes, and text in single quotes, where nothing does.
Three quotes in a row allow line ends inside.
-/

set_option autoImplicit false

namespace Recast.Toml

def isIllegalInText (multiline : Bool) (c : Char) : Bool :=
  isControl c && !(multiline && c = '\n')

def hexValue? (c : Char) : Option Nat :=
  if c.isDigit then some (c.toNat - 48)
  else if 'a' ≤ c ∧ c ≤ 'f' then some (c.toNat - 87)
  else if 'A' ≤ c ∧ c ≤ 'F' then some (c.toNat - 55)
  else none

/-- Reads a character given by so many hexadecimal digits. -/
def readHex (count : Nat) : Reader (List Char) := do
  let left ← get
  let digits := (left.take count).filterMap hexValue?
  if digits.length ≠ count then Reader.fail .invalidHex
  else
    let _ ← Reader.take count
    let code := Number.digitsValue 16 digits
    if Nat.isValidChar code then return [Char.ofNat code] else Reader.fail .notACharacter

/-- Reads what stands after a backslash. -/
def readEscape (multiline : Bool) : Reader (List Char) := do
  match ← Reader.take 1 with
  | ['b'] => return ['\x08']
  | ['t'] => return ['\t']
  | ['n'] => return ['\n']
  | ['f'] => return ['\x0c']
  | ['r'] => return ['\r']
  | ['"'] => return ['"']
  | ['\\'] => return ['\\']
  | ['u'] => readHex 4
  | ['U'] => readHex 8
  | [c] =>
    if !multiline || !isFiller c then Reader.fail .unescaped
    else
      -- At the end of a line the backslash joins the lines.
      if c ≠ '\n' then
        Reader.skipWhile isSpace
        match ← Reader.peek? with
        | none | some '\n' => pure ()
        | some _ => Reader.fail .unescaped
      Reader.skipWhile isFiller
      return []
  | _ => Reader.fail .unescaped

/-- Reads the rest of a text in double quotes. Each step takes off a character. `done` is what was
read before, last character first. -/
def readBasicFrom (multiline : Bool) : Nat → List Char → Reader String
  | 0, _ => Reader.fail .textNotClosed
  | n + 1, done => do
    if ← Reader.accept (if multiline then "\"\"\"" else "\"") then
      return String.ofList done.reverse
    match ← Reader.peek? with
    | none => Reader.fail .textNotClosed
    | some c =>
      if isIllegalInText multiline c then Reader.fail (.illegalCharacter c)
      let _ ← Reader.take 1
      let piece ← if c = '\\' then readEscape multiline else pure [c]
      readBasicFrom multiline n (piece.reverse ++ done)

def readBasic (multiline : Bool) : Reader String :=
  Reader.bounded fun n => readBasicFrom multiline n []

def readLiteral (multiline : Bool) : Reader String :=
  String.ofList <$> Reader.takeUntil (if multiline then "'''" else "'") (isIllegalInText multiline)

/-- Reads the rest of a text in three quotes. -/
def readMultiline (quote : String) (body : Reader String) : Reader String := do
  -- A line end at the start does not count.
  let _ ← Reader.accept "\n"
  let text ← body
  -- Up to two quotes before the closing ones belong to the text.
  if ← Reader.accept quote then
    if ← Reader.accept quote then return text ++ quote ++ quote
    return text ++ quote
  return text

/-- Reads a text if the next character is a quote. -/
def readText? : Reader (Option String) := do
  if ← Reader.accept "\"\"\"" then return some (← readMultiline "\"" (readBasic true))
  if ← Reader.accept "\"" then return some (← readBasic false)
  if ← Reader.accept "'''" then return some (← readMultiline "'" (readLiteral true))
  if ← Reader.accept "'" then return some (← readLiteral false)
  return none

/-! ## Names -/

def readKeyPart : Reader String := do
  match ← Reader.takeWhile isBare with
  | [] =>
    if ← Reader.accept "\"" then readBasic false
    else if ← Reader.accept "'" then readLiteral false
    else Reader.fail .invalidKey
  | part => return String.ofList part

/-- Reads the parts of a name after the first one. Each step takes off a point. -/
def readKeyTail : Nat → Reader Key
  | 0 => return []
  | n + 1 => do
    Reader.skipWhile isSpace
    if ← Reader.accept "." then
      Reader.skipWhile isSpace
      let part ← readKeyPart
      return part :: (← readKeyTail n)
    return []

/-- Reads a name, with its parts divided by points, and the blanks after it. -/
def readKey : Reader Key := do
  let part ← readKeyPart
  return part :: (← Reader.bounded readKeyTail)

end Recast.Toml
