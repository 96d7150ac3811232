import Recast.Text.Blank
import Recast.Text.Search
import Recast.Text.Word

/-!
# Substitution in text

A rule looks at the text from one place on, and at the character in front of it, and either
recognizes something there or does not. Scanning a text applies the rule at every place from left to
right and goes on behind what it recognized, so the recognized pieces never overlap. The pieces,
recognized or not, always make up the text.
-/

set_option autoImplicit false

namespace Recast.Text

/-- Recognizes something at the start of a text, given the character in front. Gives what was
recognized and the rest of the text. -/
abbrev Rule (α : Type) := Option Char → List Char → Option (α × List Char)

/-- A piece of a scanned text. -/
inductive Segment (α : Type) where
  | plain (text : List Char)
  | hit (text : List Char) (value : α)

variable {α : Type}

def Segment.text : Segment α → List Char
  | plain t => t
  | hit t _ => t

/-- What the piece stands for: itself, or what a recognized piece is replaced by. -/
def Segment.replaced (f : α → List Char) : Segment α → List Char
  | plain t => t
  | hit _ a => f a

def Segment.value? : Segment α → Option α
  | plain _ => none
  | hit _ a => some a

def pushPlain (c : Char) : List (Segment α) → List (Segment α)
  | .plain t :: rest => .plain (c :: t) :: rest
  | rest => .plain [c] :: rest

/-- Scans from a place where `previous` is the character in front. `skip` counts the characters of
a recognized piece still to be passed over. -/
def segmentsFrom (rule : Rule α) : Nat → Option Char → List Char → List (Segment α)
  | _, _, [] => []
  | skip + 1, _, c :: cs => segmentsFrom rule skip (some c) cs
  | 0, previous, c :: cs =>
    match rule previous (c :: cs) with
    | some (a, rest) =>
      let length := (c :: cs).length - rest.length
      .hit ((c :: cs).take (length - 1 + 1)) a :: segmentsFrom rule (length - 1) (some c) cs
    | none => pushPlain c (segmentsFrom rule 0 (some c) cs)

def segments (rule : Rule α) (cs : List Char) : List (Segment α) := segmentsFrom rule 0 none cs

/-- Replaces what a rule recognizes. -/
def substitute (rule : Rule (List Char)) (cs : List Char) : List Char :=
  (segments rule cs).flatMap (Segment.replaced id)

def hits (rule : Rule α) (cs : List Char) : Nat := ((segments rule cs).filterMap Segment.value?).length

/-- The first thing a rule recognizes, with the text before and after it, from a place where
`previous` is the character in front. -/
def cutHitFrom? (rule : Rule α) (previous : Option Char) :
    List Char → Option (List Char × α × List Char)
  | [] => none
  | c :: cs =>
    match rule previous (c :: cs) with
    | some (a, rest) => some ([], a, rest)
    | none => (cutHitFrom? rule (some c) cs).map fun found => (c :: found.1, found.2)

def cutHit? (rule : Rule α) (cs : List Char) : Option (List Char × α × List Char) :=
  cutHitFrom? rule none cs

def recognizes (rule : Rule α) (cs : List Char) : Bool := (cutHit? rule cs).isSome

/-- A recognized piece by the places where it starts and ends. -/
structure Found (α : Type) where
  start : Nat
  stop : Nat
  value : α

/-- The recognized pieces by their places, where the first piece starts at `start`. -/
def foundFrom (start : Nat) : List (Segment α) → List (Found α)
  | [] => []
  | .plain t :: rest => foundFrom (start + t.length) rest
  | .hit t a :: rest => ⟨start, start + t.length, a⟩ :: foundFrom (start + t.length) rest

def found (rule : Rule α) (cs : List Char) : List (Found α) := foundFrom 0 (segments rule cs)

/-! ## Building rules -/

def atLineStart (previous : Option Char) : Bool := previous.all (· == '\n')

/-- The rest of a text behind at least one blank, and all blanks that follow. -/
def afterBlanks? : List Char → Option (List Char)
  | [] => none
  | c :: cs => if isBlank c then some (cs.dropWhile isBlank) else none

/-- What is left of a text without leading blanks behind a word. -/
def afterWord? (word : String) (cs : List Char) : Option (List Char) :=
  after? word.toList (cs.dropWhile isBlank)

/-- A word character run at the start of a text, if there is any, and the rest. -/
def wordRun? (cs : List Char) : Option (List Char × List Char) :=
  let run := cs.takeWhile isWord
  if run = [] then none else some (run, cs.dropWhile isWord)

def skipChar (c : Char) : List Char → List Char
  | [] => []
  | d :: rest => if c = d then rest else d :: rest

def isIndent (c : Char) : Bool := c == ' ' || c == '\t'

/-- The rest of a text behind an optional semicolon, spaces and tabs, and an optional line feed. -/
def skipStatementEnd (cs : List Char) : List Char :=
  skipChar '\n' ((skipChar ';' cs).dropWhile isIndent)

theorem flatMap_text_pushPlain (c : Char) (pieces : List (Segment α)) :
    (pushPlain c pieces).flatMap Segment.text = c :: pieces.flatMap Segment.text := by
  unfold pushPlain
  split <;> simp [Segment.text]

theorem flatMap_text_segmentsFrom (rule : Rule α) (skip : Nat) (previous : Option Char)
    (cs : List Char) : (segmentsFrom rule skip previous cs).flatMap Segment.text = cs.drop skip := by
  fun_induction segmentsFrom rule skip previous cs with
  | case1 => simp
  | case2 skip _ c cs ih => simpa using ih
  | case3 previous c cs a rest _ length ih =>
    simp only [List.flatMap_cons, Segment.text, ih, List.take_succ_cons, List.drop_zero,
      List.cons_append, List.take_append_drop]
  | case4 previous c cs _ ih => simp [flatMap_text_pushPlain, ih]

/-- The pieces make up the text. -/
theorem flatMap_text_segments (rule : Rule α) (cs : List Char) :
    (segments rule cs).flatMap Segment.text = cs := by
  simpa [segments] using flatMap_text_segmentsFrom rule 0 none cs

end Recast.Text
