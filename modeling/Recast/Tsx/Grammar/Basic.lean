import Recast.Tsx.Scan

/-!
# Goals of the grammar

The grammar is a set of productions that refer to one another through goals. A production takes
the readings of the goals as an argument, so every production is an ordinary function, and the
recursion through the grammar is tied in one place.
-/

set_option autoImplicit false

namespace Recast.Tsx

/-- What the surroundings of an expression forbid. -/
structure ExprContext where
  /-- `in` is not an operator here: the head of a loop. -/
  noIn : Bool := false
  /-- An arrow function may not have a result type here: the middle of a conditional. -/
  noArrowType : Bool := false
  deriving Repr

/-- The places where the grammar refers to itself. -/
inductive Goal where
  | statement
  | block
  /-- An expression, possibly a sequence with commas. -/
  | expression (ctx : ExprContext)
  /-- An expression without a comma outside brackets. -/
  | single (ctx : ExprContext)
  /-- Operands joined by operators that bind at least as tightly as `level`. -/
  | operation (level : Nat) (ctx : ExprContext)
  | unary
  | binding
  /-- A type. Inside the condition of another one it is no condition itself. -/
  | type (inCondition : Bool := false)
  | element
  deriving Repr

/-- A reading for every goal. -/
abbrev Rules := Goal → Reader Tree

/-- Reads items separated by commas, with a trailing comma allowed. -/
def commaList {α : Type} (p : Reader α) : Reader (List α) := do
  let first ← optional p
  match first with
  | [] => return []
  | _ =>
    let more ← many (do sym ","; p)
    let _ ← optional (sym ",")
    return first ++ more

/-- Reads a punctuation mark that an analysis asks about. -/
def tokenNode (s : String) : Reader Tree := leaf .token (sym s)

/-- Whether a line end before the next lexeme ends the statement. -/
def endsStatement (afterExpression : Bool) : List Char → Bool
  | [] => true
  | c :: cs =>
    if "`,.;*%><=?^|&/:".toList.contains c then false
    -- After a complete expression a bracket on the next line continues it.
    else if c == '(' || c == '[' then !afterExpression
    else if c == '+' then cs.head? == some '+'
    else if c == '-' then cs.head? == some '-'
    else if c == '!' then cs.head? != some '='
    else !(startsWithWord "in".toList (c :: cs) || startsWithWord "instanceof".toList (c :: cs))
where
  startsWithWord (w cs : List Char) : Bool :=
    match Text.after? w cs with
    | some (d :: _) => !d.isAlpha
    | some [] => true
    | none => false

/-- A line end, the end of a block or the end of the source stands in for a semicolon. -/
def automaticSemicolon (afterExpression : Bool) : Reader Unit := do
  match ← ahead with
  | [] => return ()
  | '}' :: _ => return ()
  | cs => ensure ((← newlineAhead) && endsStatement afterExpression cs)

def semicolon : Reader Unit := sym ";" <|> automaticSemicolon true

end Recast.Tsx
