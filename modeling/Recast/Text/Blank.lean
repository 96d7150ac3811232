import Recast.Text.Range

/-!
# Blanks and line ends

What counts as white space, what ends a line, and the trimming and splitting built on them. Blanks
are the space characters of every script together with the control characters that separate lines,
records and pages.
-/

set_option autoImplicit false

namespace Recast.Text

/-- The blank characters, as closed ranges. -/
def blankRanges : List (Nat × Nat) := [
  (0x9, 0xd), (0x1c, 0x20), (0x85, 0x85), (0xa0, 0xa0), (0x1680, 0x1680), (0x2000, 0x200a),
  (0x2028, 0x2029), (0x202f, 0x202f), (0x205f, 0x205f), (0x3000, 0x3000)]

def isBlank (c : Char) : Bool := inRanges blankRanges c.toNat

def isLineEnd (c : Char) : Bool :=
  inRanges [(0xa, 0xd), (0x1c, 0x1e), (0x85, 0x85), (0x2028, 0x2029)] c.toNat

def dropEndWhile (p : Char → Bool) (cs : List Char) : List Char :=
  (cs.reverse.dropWhile p).reverse

def trimWhile (p : Char → Bool) (cs : List Char) : List Char :=
  dropEndWhile p (cs.dropWhile p)

def stripChars (cs : List Char) : List Char := trimWhile isBlank cs

/-- Drops blanks at both ends. -/
def strip (s : String) : String := String.ofList (stripChars s.toList)

def stripEnd (s : String) : String := String.ofList (dropEndWhile isBlank s.toList)

/-- Adds one character to the word being read. -/
def pushWord (c : Char) : List (List Char) → List (List Char)
  | [] => [[c]]
  | w :: ws => (c :: w) :: ws

/-- The maximal runs of characters that are not blank, with an empty head while none is open. -/
def wordsFrom : List Char → List (List Char)
  | [] => [[]]
  | c :: rest =>
    if isBlank c then [] :: wordsFrom rest else pushWord c (wordsFrom rest)

def wordsChars (cs : List Char) : List (List Char) := (wordsFrom cs).filter (· ≠ [])

/-- The maximal runs of characters that are not blank. -/
def words (s : String) : List String := (wordsChars s.toList).map String.ofList

/-- The lines of a text, where the last one is present only if it is not empty. -/
def linesFrom : List Char → List (List Char)
  | [] => []
  -- A carriage return followed by a line feed ends one line.
  | '\r' :: '\n' :: rest => [] :: linesFrom rest
  | c :: rest => if isLineEnd c then [] :: linesFrom rest else pushWord c (linesFrom rest)

def lines (s : String) : List String := (linesFrom s.toList).map String.ofList

end Recast.Text
