import Recast.Tsx.Tree
import Recast.Text.Search

/-!
# Reading source text

A reader consumes a piece of the source or fails, leaving the choice of another reading to its
caller. This module has the cursor, the white space and comments between lexemes, and the lexemes
themselves: words, punctuation, literals.
-/

set_option autoImplicit false

namespace Recast.Tsx

open Recast.Text

/-- A position in the source: what is still to be read, and how many characters that is. -/
structure Cursor where
  left : Nat
  rest : List Char
  counted : left = rest.length

def Cursor.ofText (s : String) : Cursor := ⟨s.toList.length, s.toList, rfl⟩

def Cursor.textTo (start stop : Cursor) : String :=
  String.ofList (start.rest.take (start.left - stop.left))

def Cursor.advance (n : Nat) (c : Cursor) : Cursor :=
  ⟨c.left - n, c.rest.drop n, by rw [c.counted, List.length_drop]⟩

/-- A reading that consumes input or fails. -/
abbrev Reader := StateT Cursor Option

/-! ## Between lexemes -/

def isSpace (c : Char) : Bool :=
  c == ' ' || c == '\n' || c == '\r' || c == '\t' ||
    inSpaces c.toNat
where
  inSpaces (n : Nat) : Bool :=
    n == 0xb || n == 0xc || n == 0xa0 || n == 0x1680 || (0x2000 ≤ n && n ≤ 0x200b) ||
      n == 0x2028 || n == 0x2029 || n == 0x202f || n == 0x205f || n == 0x2060 || n == 0x3000 ||
      n == 0xfeff

def endsLine (c : Char) : Bool :=
  c == '\n' || c == '\r' || c.toNat == 0x2028 || c.toNat == 0x2029

structure Trivia where
  length : Nat
  /-- A line ends outside every comment. -/
  lineBreak : Bool
  comments : List (List Char)

def Trivia.none : Trivia := ⟨0, false, []⟩

def Trivia.grow (n : Nat) (t : Trivia) : Trivia := { t with length := t.length + n }

/-- Where in the space between lexemes a scan is: outside comments, or inside one of which `text`
was read, last character first. -/
inductive TriviaMode where
  | code
  | line (text : List Char)
  | block (text : List Char)

/-- The space and comments in front of the next lexeme. -/
def triviaFrom : TriviaMode → List Char → Option Trivia
  | .code, '/' :: '/' :: cs => (triviaFrom (.line ['/', '/']) cs).map (Trivia.grow 2)
  | .code, '/' :: '*' :: cs =>
    match triviaFrom (.block ['*', '/']) cs with
    | some t => some (t.grow 2)
    -- A block comment that is not closed is no comment.
    | .none => some Trivia.none
  | .code, c :: cs =>
    if isSpace c then
      (triviaFrom .code cs).map fun t => { t.grow 1 with lineBreak := t.lineBreak || c == '\n' }
    else some Trivia.none
  | .code, [] => some Trivia.none
  | .line text, c :: cs =>
    if endsLine c then
      (triviaFrom .code cs).map fun t =>
        ⟨t.length + 1, t.lineBreak || c == '\n', text.reverse :: t.comments⟩
    else (triviaFrom (.line (c :: text)) cs).map (Trivia.grow 1)
  | .line text, [] => some ⟨0, false, [text.reverse]⟩
  | .block text, '*' :: '/' :: cs =>
    (triviaFrom .code cs).map fun t =>
      ⟨t.length + 2, t.lineBreak, ('/' :: '*' :: text).reverse :: t.comments⟩
  | .block text, c :: cs => (triviaFrom (.block (c :: text)) cs).map (Trivia.grow 1)
  | .block _, [] => .none

def triviaOf (cs : List Char) : Trivia := (triviaFrom .code cs).getD Trivia.none

/-- Passes over space and comments and reports them. -/
def readTrivia : Reader Trivia := do
  let c ← get
  let t := triviaOf c.rest
  set (c.advance t.length)
  return t

def skip : Reader Unit := do
  let _ ← readTrivia

def newlineAhead : Reader Bool := do
  return (triviaOf (← get).rest).lineBreak

/-- The next characters, after space and comments. -/
def ahead : Reader (List Char) := do
  let c ← get
  return c.rest.drop (triviaOf c.rest).length

def ensure (b : Bool) : Reader Unit := if b then pure () else failure

def lookAhead {α : Type} (p : Reader α) : Reader α := do
  let c ← get
  let a ← p
  set c
  return a

/-- Succeeds, consuming nothing, exactly if the reading fails. -/
def notAhead {α : Type} (p : Reader α) : Reader Unit := fun c =>
  match p c with
  | some _ => none
  | none => some ((), c)

/-! ## Repetition -/

/-- At most `n` readings one after the other, as many as succeed. -/
def manyUpTo {α : Type} (p : Reader α) : Nat → Reader (List α)
  | 0 => return []
  | n + 1 => (do
      let a ← p
      let rest ← manyUpTo p n
      return a :: rest) <|> return []

/-- As many readings as succeed. -/
def many {α : Type} (p : Reader α) : Reader (List α) := do
  -- Each reading consumes something, so the input bounds their number.
  manyUpTo p ((← get).left + 1)

def optional {α : Type} (p : Reader α) : Reader (List α) := (do return [← p]) <|> return []

def extendUpTo {α : Type} (step : α → Reader α) : Nat → α → Reader α
  | 0, a => return a
  | n + 1, a => (do extendUpTo step n (← step a)) <|> return a

/-- Extends what was read so far as often as possible. -/
def extend {α : Type} (step : α → Reader α) (a : α) : Reader α := do
  extendUpTo step ((← get).left + 1) a

/-! ## Lexemes -/

/-- Reads the given characters, right here. -/
def chars (s : String) : Reader Unit := do
  let c ← get
  match after? s.toList c.rest with
  | some _ => set (c.advance s.toList.length)
  | none => failure

/-- Reads the given characters as the next lexeme, even where a longer one could be read. -/
def sym (s : String) : Reader Unit := do
  skip
  chars s

/-- The operators, longest first. -/
def operators : List String := [
  ">>>=", "...", "===", "!==", "**=", "<<=", ">>=", ">>>", "&&=", "||=", "??=",
  "=>", "==", "!=", "<=", ">=", "&&", "||", "??", "?.", "++", "--", "+=", "-=", "*=", "/=", "%=",
  "&=", "|=", "^=", "<<", ">>", "**",
  "<", ">", "=", "+", "-", "*", "/", "%", "&", "|", "^", "!", "~", "?", ":", ".", ",", ";"]

/-- The longest operator at the start of a text. -/
def operatorAt (cs : List Char) : Option String :=
  match cs with
  -- A question mark before a decimal is no chaining.
  | '?' :: '.' :: d :: _ => if d.isDigit then some "?" else longest
  | _ => longest
where
  longest : Option String := operators.find? fun o => (after? o.toList cs).isSome

/-- Reads the longest operator ahead, whatever it is. -/
def anyOperator : Reader String := do
  skip
  match operatorAt (← get).rest with
  | some o => do chars o; return o
  | none => failure

/-- Reads exactly this operator. -/
def op (s : String) : Reader Unit := do
  ensure ((← anyOperator) == s)

def oneOf (os : List String) : Reader String := do
  let o ← anyOperator
  ensure (os.contains o)
  return o

def isWordChar (c : Char) : Bool :=
  if c.val < 128 then c.isAlphanum || c == '_' || c == '$' else !isSpace c

/-- Reads the characters that satisfy a class, right here. -/
def takeWhile (p : Char → Bool) : Reader (List Char) := do
  let c ← get
  let taken := c.rest.takeWhile p
  set (c.advance taken.length)
  return taken

def word : Reader String := do
  skip
  match (← get).rest with
  | c :: _ => ensure (isWordChar c && !c.isDigit)
  | [] => failure
  return String.ofList (← takeWhile isWordChar)

def keyword (k : String) : Reader Unit := do
  ensure ((← word) == k)

def oneOfKeywords (ks : List String) : Reader String := do
  let w ← word
  ensure (ks.contains w)
  return w

/-- Words that cannot name a value. -/
def reserved : List String := [
  "break", "case", "catch", "class", "const", "continue", "debugger", "default", "delete", "do",
  "else", "enum", "export", "extends", "false", "finally", "for", "function", "if", "import", "in",
  "instanceof", "new", "null", "return", "super", "switch", "this", "throw", "true", "try",
  "typeof", "var", "void", "while", "with"]

/-! ## Nodes -/

/-- The node that covers the text from `start` to here. -/
def close (start : Cursor) (kind : Kind) (children : List Tree) : Reader Tree := do
  return .mk kind .none (start.textTo (← get)) children

/-- Passes over the space in front of a node and marks where it starts. -/
def mark : Reader Cursor := do
  skip
  get

def node (kind : Kind) (children : Reader (List Tree)) : Reader Tree := do
  let start ← mark
  close start kind (← children)

def leaf {α : Type} (kind : Kind) (p : Reader α) : Reader Tree :=
  node kind (do let _ ← p; return [])

def identifier : Reader Tree := leaf .identifier do
  ensure (!reserved.contains (← word))

/-- Reads a word as the name of a binding. Only punctuation is refused. -/
def bindingName : Reader Tree := leaf .identifier word

/-! ## Literals -/

def isHex (c : Char) : Bool :=
  c.isDigit || ('a' ≤ c && c ≤ 'f') || ('A' ≤ c && c ≤ 'F')

/-- The length of an escape after its backslash. -/
def escapeLength : List Char → Option Nat
  | 'x' :: a :: b :: _ => if isHex a && isHex b then some 3 else none
  | 'x' :: _ => none
  | 'u' :: '{' :: cs =>
    let digits := cs.takeWhile isHex
    if digits ≠ [] && cs[digits.length]? == some '}' then some (digits.length + 3) else none
  | 'u' :: a :: b :: c :: d :: _ =>
    if isHex a && isHex b && isHex c && isHex d then some 5 else none
  | 'u' :: _ => none
  | '\r' :: '\n' :: _ => some 2
  | _ :: _ => some 1
  | [] => none

def escape : Reader Unit := do
  chars "\\"
  let c ← get
  match escapeLength c.rest with
  | some n => set (c.advance n)
  | none => failure

def satisfy (p : Char → Bool) : Reader Char := do
  let c ← get
  match c.rest with
  | x :: _ => if p x then do set (c.advance 1); return x else failure
  | [] => failure

def takeSome (p : Char → Bool) : Reader Unit := do
  let taken ← takeWhile p
  ensure (taken ≠ [])

def stringLiteral : Reader Tree := leaf .stringLiteral do
  let q ← satisfy fun c => c == '"' || c == '\''
  let _ ← many (takeSome (fun c => c != q && c != '\\' && c != '\n' && c != '\r') <|> escape)
  chars (String.singleton q)

/-- Digits of a number, with separators. -/
def digits (p : Char → Bool) : Reader Unit := takeSome fun c => p c || c == '_'

def radixNumber : Reader Unit := do
  chars "0"
  let m ← satisfy fun c => "xXoObB".toList.contains c
  digits (if m == 'x' || m == 'X' then isHex else Char.isDigit)
  let _ ← optional (chars "n")

def exponent : Reader Unit := do
  let _ ← satisfy fun c => c == 'e' || c == 'E'
  let _ ← optional (satisfy fun c => c == '+' || c == '-')
  digits Char.isDigit

def decimalNumber : Reader Unit := do
  (do digits Char.isDigit
      let _ ← optional (do chars "."; let _ ← optional (digits Char.isDigit)))
    <|> (do chars "."; digits Char.isDigit)
  let _ ← optional exponent
  let _ ← optional (chars "n")

/-- Reads a number that is not the start of a word. -/
def number : Reader Tree := leaf .number do
  radixNumber <|> decimalNumber
  notAhead (satisfy isWordChar)

/-- Reads the body of a regular expression, where brackets protect a slash. -/
def regexBody : Reader Unit := do
  let _ ← many (takeSome (fun c => c != '/' && c != '\\' && c != '[' && !endsLine c)
    <|> (do chars "\\"; let _ ← satisfy (!endsLine ·))
    <|> (do
      chars "["
      let _ ← many (takeSome (fun c => c != ']' && c != '\\' && !endsLine c)
        <|> (do chars "\\"; let _ ← satisfy (!endsLine ·)))
      chars "]"))

def regex : Reader Tree := leaf .other do
  chars "/"
  notAhead (chars "*" <|> chars "/")
  regexBody
  chars "/"
  let _ ← takeWhile Char.isAlpha

end Recast.Tsx
