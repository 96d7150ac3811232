import Recast.Text.Blank
import Recast.Text.Search
import Recast.Text.Word

/-!
# Scanning expressions

Expressions of the source language are carried over as text. These scanners find the pieces that
have to change without parsing the expression: string literals, calls by name, the end of a
bracket, and the parts between separators outside brackets and quotes.
-/

set_option autoImplicit false

namespace Recast.ClassExpr

open Recast.Text

def isQuote (c : Char) : Bool := c == '"' || c == '\'' || c == '`'

/-- A character that joins a following name to something in front of it. -/
def joinsName (c : Char) : Bool := isWord c || c == '.' || c == '$'

/-- A character that continues a name. -/
def continuesName (c : Char) : Bool := isWord c || c == '$'

/-! ## String literals -/

/-- The rest of a string literal up to and with its closing quote, and what follows. -/
def literalRest? (q : Char) : List Char → Option (List Char × List Char)
  | [] => none
  | '\\' :: [] => none
  -- A backslash takes the next character along, which cannot be a line end.
  | '\\' :: c :: cs =>
    if c = '\n' then none
    else (literalRest? q cs).map fun r => ('\\' :: c :: r.1, r.2)
  | c :: cs =>
    if c = q then some ([c], cs) else (literalRest? q cs).map fun r => (c :: r.1, r.2)

/-- A quoted literal at the start of a text, and what follows. Backquotes start none. -/
def literal? : List Char → Option (List Char × List Char)
  | [] => none
  | q :: cs =>
    if q = '"' ∨ q = '\'' then (literalRest? q cs).map fun r => (q :: r.1, r.2) else none

theorem literalRest?_append {q : Char} {cs l r : List Char} (h : literalRest? q cs = some (l, r)) :
    cs = l ++ r := by
  fun_induction literalRest? q cs generalizing l with
  | case1 => simp at h
  | case2 => simp at h
  | case3 => simp at h
  | case4 c cs hc ih =>
    obtain ⟨p, hp, he⟩ := Option.map_eq_some_iff.1 h
    cases he
    simp [← ih hp]
  | case5 c cs =>
    cases h
    rfl
  | case6 c cs _ _ _ ih =>
    obtain ⟨p, hp, he⟩ := Option.map_eq_some_iff.1 h
    cases he
    simp [← ih hp]

/-- A literal is a non-empty piece of the text. -/
theorem literal?_append {cs l r : List Char} (h : literal? cs = some (l, r)) :
    cs = l ++ r ∧ l ≠ [] := by
  cases cs with
  | nil => simp [literal?] at h
  | cons q cs =>
    simp only [literal?] at h
    split at h
    · obtain ⟨p, hp, he⟩ := Option.map_eq_some_iff.1 h
      cases he
      exact ⟨by simp [← literalRest?_append hp], by simp⟩
    · cases h

theorem literal?_length {cs l r : List Char} (h : literal? cs = some (l, r)) :
    r.length < cs.length := by
  obtain ⟨he, hl⟩ := literal?_append h
  have := List.length_pos_iff.2 hl
  simp [he]
  omega

/-- A piece of an expression: a string literal or code. -/
inductive Piece where
  | literal (text : List Char)
  | code (text : List Char)
  deriving DecidableEq, Repr

def Piece.text : Piece → List Char
  | literal t => t
  | code t => t

def pushCode (c : Char) : List Piece → List Piece
  | .code t :: ps => .code (c :: t) :: ps
  | ps => .code [c] :: ps

/-- The string literals of an expression and the code between them. -/
def pieces (cs : List Char) : List Piece :=
  match cs with
  | [] => []
  | c :: rest =>
    match _h : literal? (c :: rest) with
    | some (l, r) => .literal l :: pieces r
    | none => pushCode c (pieces rest)
termination_by cs.length
decreasing_by
  · exact literal?_length _h
  · simp

/-! ## Brackets and separators -/

/-- The text up to the parenthesis that closes the one just read, with `depth` further ones open and
`quote` the quote the scan is inside of. -/
def upToClose? (depth : Nat) (quote : Option Char) : List Char → Option (List Char)
  | [] => none
  | c :: cs =>
    match quote with
    | some q =>
      -- In quotes a backslash takes the next character along.
      if c = '\\' then
        match cs with
        | [] => none
        | d :: ds => (upToClose? depth quote ds).map fun r => c :: d :: r
      else (upToClose? depth (if c = q then none else quote) cs).map (c :: ·)
    | none =>
      if isQuote c then (upToClose? depth (some c) cs).map (c :: ·)
      else if c = '(' then (upToClose? (depth + 1) none cs).map (c :: ·)
      else if c = ')' then
        match depth with
        | 0 => some []
        | d + 1 => (upToClose? d none cs).map (c :: ·)
      else (upToClose? depth none cs).map (c :: ·)

/-- The parts of a text between separators outside brackets and quotes, untrimmed. `previous` is the
last character read and `depth` the number of open brackets. -/
def partsFrom (separator : Char) (depth : Int) (quote : Option Char) (previous : Option Char) :
    List Char → List (List Char)
  | [] => [[]]
  | c :: cs =>
    match quote with
    | some q =>
      -- A quote ends where a quote of its kind does not follow a backslash.
      let quote := if c = q ∧ previous ≠ some '\\' then none else quote
      push c (partsFrom separator depth quote (some c) cs)
    | none =>
      let quote := if isQuote c then some c else none
      -- Stray closing brackets make the depth negative.
      let depth :=
        if c = '(' ∨ c = '[' ∨ c = '\x7b' then depth + 1
        else if c = ')' ∨ c = ']' ∨ c = '\x7d' then depth - 1
        else depth
      let rest := partsFrom separator depth quote (some c) cs
      if c = separator ∧ depth = 0 then [] :: rest else push c rest
where
  push (c : Char) : List (List Char) → List (List Char)
    | [] => [[c]]
    | p :: ps => (c :: p) :: ps

/-- The parts of a text between separators outside brackets and quotes, trimmed, without empty
ones. -/
def splitTopLevel (separator : Char) (cs : List Char) : List (List Char) :=
  ((partsFrom separator 0 none none cs).map stripChars).filter (· ≠ [])

/-! ## Calls -/

/-- Whether the name and an opening parenthesis start the text, with blanks between them. -/
def startsCall (name cs : List Char) : Bool :=
  match after? name cs with
  | some rest => (rest.dropWhile isBlank).head? == some '('
  | none => false

/-- The place of the first call of a name that is not joined to something in front of it, counted
from `i`. -/
def findCallIn? (name : List Char) (previous : Option Char) (i : Nat) : List Char → Option Nat
  | [] => none
  | c :: cs =>
    if !previous.any joinsName && startsCall name (c :: cs) then some i
    else findCallIn? name (some c) (i + 1) cs

def findCall? (name code : List Char) (start : Nat) : Option Nat :=
  findCallIn? name (if start = 0 then none else code[start - 1]?) start (code.drop start)

def openAfter (code : List Char) (start : Nat) : Nat :=
  start + ((code.drop start).takeWhile (· ≠ '(')).length

/-- The place of the parenthesis that closes the one at a position. -/
def closeOf? (code : List Char) (openAt : Nat) : Option Nat :=
  (upToClose? 0 none (code.drop (openAt + 1))).map fun inside => openAt + 1 + inside.length

end Recast.ClassExpr
