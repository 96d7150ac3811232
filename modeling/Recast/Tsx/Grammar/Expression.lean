import Recast.Tsx.Grammar.Binding
import Recast.Tsx.Grammar.Markup

/-!
# Expressions

Operators bind by levels; calls, members and the like extend an expression to the right; functions,
objects, arrays, templates and markup stand on their own.
-/

set_option autoImplicit false

namespace Recast.Tsx

/-! ## Functions and classes -/

/-- Reads name, signature and body of a function after its keyword. -/
def functionRest (rules : Rules) (name : List Tree) : Reader (List Tree) := do
  let parts ← signature rules
  let body ← rules .block
  return name.map (·.withRole .name) ++ parts ++ [body.withRole .body]

/-- Reads a function with its keyword, and tells whether it is a generator. -/
def functionNode (rules : Rules) (kind : Kind) (named : Bool) : Reader Tree := do
  let start ← mark
  let _ ← optional (do keyword "async"; ensure (!(← newlineAhead)))
  keyword "function"
  let generator ← optional (sym "*")
  let name ← if named then (do return [← bindingName]) else optional bindingName
  let parts ← functionRest rules name
  close start (if generator.isEmpty then kind else .other) parts

def memberModifiers : List String := [
  "static", "public", "private", "protected", "readonly", "abstract", "override", "declare",
  "async", "get", "set", "accessor"]

/-- Reads the modifiers of a member, as long as a name follows. -/
def modifiers (rules : Rules) : Reader Unit := do
  let _ ← many (do
    let _ ← oneOfKeywords memberModifiers
    lookAhead (do
      let _ ← optional (sym "*")
      let _ ← propertyName rules))
  let _ ← optional (sym "*")

def methodNode (rules : Rules) : Reader Tree :=
  node .other do
    modifiers rules
    let name ← propertyName rules
    let _ ← optional (sym "?")
    let parts ← signature rules
    let body ← optional (rules .block)
    return name :: parts ++ body

def fieldNode (rules : Rules) : Reader Tree :=
  node .other do
    modifiers rules
    let name ← propertyName rules
    let _ ← optional (sym "?" <|> sym "!")
    let type ← optional (ascription rules)
    let value ← optional (do op "="; rules (.single {}))
    semicolon
    return name :: type ++ value

def classMember (rules : Rules) : Reader (List Tree) := do
  let marks ← decorators rules
  let members ← (do sym ";"; return [])
    <|> (do keyword "static"; return [← rules .block])
    <|> (do
      let m ← methodNode rules
      let _ ← optional (sym ";")
      return [m])
    <|> (do
      let m ← indexSignature rules
      semicolon
      return [m])
    <|> (do return [← fieldNode rules])
  return marks ++ members

def classNode (rules : Rules) : Reader Tree :=
  node .other do
    let marks ← decorators rules
    let _ ← optional (keyword "abstract")
    keyword "class"
    let name ← optional (do
      notAhead (oneOfKeywords ["extends", "implements"])
      bindingName)
    let tps ← optional (typeParameters rules)
    let base ← optional (do
      keyword "extends"
      let b ← rules .unary
      let args ← optional (typeArguments rules)
      return b :: args)
    let faces ← optional (do keyword "implements"; commaList (rules .type))
    sym "\x7b"
    let members ← many (classMember rules)
    sym "\x7d"
    return marks ++ name ++ tps ++ base.flatten ++ faces.flatten ++ members.flatten

def arrowBody (rules : Rules) (ctx : ExprContext) : Reader Tree := do
  match ← ahead with
  | '{' :: _ => rules .block
  | _ => rules (.single ctx)

/-- Reads an arrow function with one bare parameter. -/
def bareArrow (rules : Rules) (ctx : ExprContext) : Reader (List Tree) := do
  let p ← identifier
  op "=>"
  let body ← arrowBody rules ctx
  return [p.withRole .parameter, body.withRole .body]

/-- Reads an arrow function with a parenthesized parameter list. -/
def listArrow (rules : Rules) (ctx : ExprContext) : Reader (List Tree) := do
  let tps ← optional (typeParameters rules)
  let ps ← parameters rules
  let result ← if ctx.noArrowType then pure [] else optional (resultType rules)
  op "=>"
  let body ← arrowBody rules ctx
  return tps ++ [ps.withRole .parameters] ++ result ++ [body.withRole .body]

def arrowFunction (rules : Rules) (ctx : ExprContext) : Reader Tree :=
  node .arrowFunction do
    (do
      keyword "async"
      ensure (!(← newlineAhead))
      bareArrow rules ctx <|> listArrow rules ctx) <|> do
    match ← ahead with
    | '(' :: _ => listArrow rules ctx
    | '<' :: _ => do
      -- A single name in angle brackets is a tag; a comma, bound or default makes parameters of it.
      lookAhead (do
        sym "<"
        let _ ← optional (keyword "const")
        let _ ← word
        sym "," <|> keyword "extends" <|> op "=")
      listArrow rules ctx
    | _ => bareArrow rules ctx

/-! ## Literals with parts -/

/-- Reads a template. Its pieces of text and its holes are children. -/
def template (rules : Rules) : Reader Tree :=
  node .templateLiteral do
    chars "`"
    let parts ← many (
      (do
        let start ← get
        let _ ← (takeSome (fun c => c != '`' && c != '\\' && c != '$')) <|> (do
          chars "$"
          notAhead (chars "\x7b"))
        return [← close start .other []])
      <|> (do escape; return [])
      <|> (do
        let start ← get
        chars "$\x7b"
        let e ← rules (.expression {})
        sym "\x7d"
        return [← close start .other [e]]))
    chars "`"
    return parts.flatten

def spreadNode (rules : Rules) : Reader Tree :=
  node .spread do
    sym "..."
    return [← rules (.single {})]

/-- Reads an array, where places may be left empty. -/
def arrayLiteral (rules : Rules) : Reader Tree :=
  node .arrayLiteral do
    sym "["
    let slot := optional (spreadNode rules <|> rules (.single {}))
    let first ← slot
    let more ← many (do sym ","; slot)
    sym "]"
    return first ++ more.flatten

def objectEntry (rules : Rules) : Reader Tree :=
  spreadNode rules
    <|> node .pair (do
      let key ← propertyName rules
      sym ":"
      let value ← rules (.single {})
      return [key.withRole .key, value.withRole .value])
    <|> node .other (do
      modifiers rules
      let name ← propertyName rules
      let parts ← signature rules
      let body ← rules .block
      return name :: parts ++ [body])
    <|> node .other (do
      let name ← leaf .shorthand word
      op "="
      return [name, ← rules (.single {})])
    <|> leaf .shorthand word

def objectLiteral (rules : Rules) : Reader Tree :=
  node .objectLiteral do
    sym "\x7b"
    let first ← optional (objectEntry rules)
    let more ← many (do sym ","; optional (objectEntry rules))
    sym "\x7d"
    return first ++ more.flatten

def arguments (rules : Rules) : Reader Tree :=
  node .arguments do
    sym "("
    let slot := optional (spreadNode rules <|> rules (.single {}))
    let first ← slot
    let more ← many (do sym ","; slot)
    sym ")"
    return first ++ more.flatten

def parenthesized (rules : Rules) : Reader Tree :=
  node .parenthesized do
    sym "("
    let e ← rules (.expression {})
    let type ← optional (ascription rules)
    sym ")"
    return e :: type

/-! ## Operands -/

/-- Reads what `new` constructs: a path without calls, and its arguments. -/
def newNode (rules : Rules) (operand : Reader Tree) : Reader Tree :=
  node .other do
    keyword "new"
    (do sym "."; return [← leaf .other (keyword "target")]) <|> do
      let start ← mark
      let head ← operand
      let path ← extend (fun t => (do
          sym "."
          let name ← leaf .propertyName (do let _ ← optional (sym "#"); word)
          close start .member [t.withRole .object, name]) <|> (do
          sym "["
          let i ← rules (.expression {})
          sym "]"
          close start .other [t, i])) head
      let types ← optional (typeArguments rules)
      let args ← optional (arguments rules)
      return path :: types ++ args

def wordOperand (rules : Rules) : Reader Tree := do
  match ← lookAhead word with
  | "function" => functionNode rules .functionExpression false
  | "async" => functionNode rules .functionExpression false <|> identifier
  | "class" => classNode rules
  | "await" => failure
  | "import" => leaf .other (do
    keyword "import"
    (do sym "."; let _ ← word) <|> lookAhead (sym "("))
  | w =>
    if ["this", "super", "null", "true", "false"].contains w then leaf .other word
    else identifier

/-- Reads an operand without anything after it. `new` nests, so its depth is bounded by the
input. -/
def primaryUpTo (rules : Rules) : Nat → Reader Tree
  | 0 => failure
  | n + 1 => do
    match ← ahead with
    | '(' :: _ => parenthesized rules
    | '[' :: _ => arrayLiteral rules
    | '{' :: _ => objectLiteral rules
    | '"' :: _ => do skip; stringLiteral
    | '\'' :: _ => do skip; stringLiteral
    | '`' :: _ => do skip; template rules
    | '/' :: _ => do skip; regex
    | '<' :: _ => rules .element <|> node .arrowFunction (listArrow rules {})
    | '#' :: _ => leaf .other (do sym "#"; word)
    | '@' :: _ => classNode rules
    | c :: cs =>
      if c.isDigit || (c == '.' && (cs.head?.any Char.isDigit)) then do skip; number
      else newNode rules (primaryUpTo rules n) <|> wordOperand rules
    | [] => failure

def memberName : Reader Tree := leaf .propertyName do
  let _ ← optional (sym "#")
  word

/-- Reads type arguments in front of the arguments of a call. -/
def callTypeArguments (rules : Rules) : Reader Tree := do
  let args ← typeArguments rules
  match ← ahead with
  | '(' :: _ => return args
  | '`' :: _ => return args
  | _ => failure

/-- Whether an operand may start with the given characters. -/
def startsOperand : List Char → Bool
  | '!' :: '=' :: _ => false
  | c :: _ => isWordChar c || "([\x7b\"'`<+-!~@#".toList.contains c
  | [] => false

/-- Reads type arguments without a call. What stands behind them must not be an operand, which would
make operators of the angle brackets, unless it stands on the next line. -/
def bareTypeArguments (rules : Rules) : Reader Tree := do
  let args ← typeArguments rules
  -- The bracket may be the start of a longer operator.
  notAhead (chars "=" <|> chars ">")
  (do ensure ((← newlineAhead) || !startsOperand (← ahead)))
    <|> lookAhead (do let _ ← oneOfKeywords ["as", "satisfies", "in", "instanceof"])
  return args

/-- Reads one extension of an operand: a member, an index, a call, a tagged template or type
arguments. -/
def operandStep (rules : Rules) (start : Cursor) (t : Tree) : Reader Tree := do
  match ← ahead with
  | '.' :: _ => do
    op "."
    let name ← memberName
    close start .member [t.withRole .object, name]
  | '?' :: _ => do
    op "?."
    match ← ahead with
    | '(' :: _ => do
      let args ← arguments rules
      close start .call [t.withRole .callee, args.withRole .arguments]
    | '<' :: _ => do
      let types ← typeArguments rules
      let args ← arguments rules
      close start .call
        [t.withRole .callee, types.withRole .typeArguments, args.withRole .arguments]
    | '[' :: _ => do
      sym "["
      let i ← rules (.expression {})
      sym "]"
      close start .other [t, i]
    | _ => do
      let name ← memberName
      close start .member [t.withRole .object, name]
  | '[' :: _ => do
    sym "["
    let i ← rules (.expression {})
    sym "]"
    close start .other [t, i]
  | '(' :: _ => do
    let args ← arguments rules
    close start .call [t.withRole .callee, args.withRole .arguments]
  | '`' :: _ => do
    skip
    let args ← template rules
    close start .call [t.withRole .callee, args.withRole .arguments]
  | '!' :: _ => do
    ensure (!(← newlineAhead))
    op "!"
    close start .other [t]
  | '<' :: _ =>
    (do
      let types ← callTypeArguments rules
      skip
      let args ← arguments rules <|> template rules
      close start .call
        [t.withRole .callee, types.withRole .typeArguments, args.withRole .arguments])
    <|> (do
      let types ← bareTypeArguments rules
      close start .other [t, types.withRole .typeArguments])
  | _ => failure

/-- Reads an operand with its members, calls and indices. -/
def operand (rules : Rules) : Reader Tree := do
  let start ← mark
  let first ← primaryUpTo rules ((← get).left + 1)
  let e ← extend (operandStep rules start) first
  (do
    ensure (!(← newlineAhead))
    let _ ← oneOf ["++", "--"]
    close start .other [e]) <|> return e

def unaryExpression (rules : Rules) : Reader Tree :=
  node .other (do
    let _ ← oneOf ["!", "~", "+", "-", "++", "--"]
    return [← rules .unary])
  <|> node .other (do
    let _ ← oneOfKeywords ["typeof", "void", "delete"]
    return [← rules .unary])
  <|> node .other (do
    keyword "await"
    return [← rules .unary])
  <|> operand rules

/-! ## Operations -/

/-- The operators between two operands and how tightly they bind. -/
def binaryLevels : List (String × Nat) := [
  ("??", 1), ("||", 2), ("&&", 3), ("|", 4), ("^", 5), ("&", 6),
  ("==", 7), ("!=", 7), ("===", 7), ("!==", 7),
  ("<", 8), (">", 8), ("<=", 8), (">=", 8),
  ("<<", 9), (">>", 9), (">>>", 9), ("+", 10), ("-", 10), ("*", 11), ("/", 11), ("%", 11),
  ("**", 12)]

/-- Reads an operator between operands that binds at least as tightly as `level`. -/
def binaryOperator (level : Nat) (ctx : ExprContext) : Reader (Tree × Nat) := do
  let start ← mark
  (do
    let o ← anyOperator
    match binaryLevels.lookup o with
    | some l => do
      ensure (level ≤ l)
      return ((← close start .token []).withRole .operator, l)
    | none => failure) <|> do
    let w ← word
    ensure (level ≤ 8 && (w == "instanceof" || (w == "in" && !ctx.noIn)))
    return ((← close start .token []).withRole .operator, 8)

/-- Reads `as` or `satisfies` and a type, on the same line. -/
def typeConversion (rules : Rules) (start : Cursor) (t : Tree) : Reader Tree := do
  ensure (!(← newlineAhead))
  let w ← oneOfKeywords ["as", "satisfies"]
  let type ← leaf .other (keyword "const") <|> rules .type
  close start (if w == "as" then .asExpression else .other) [t, type]

def operation (rules : Rules) (level : Nat) (ctx : ExprContext) : Reader Tree := do
  let start ← mark
  let first ← unaryExpression rules
  extend (fun t => (do
      ensure (level ≤ 8)
      typeConversion rules start t) <|> (do
      let (o, l) ← binaryOperator level ctx
      -- Powers group to the right, all else to the left.
      let right ← rules (.operation (if l == 12 then 12 else l + 1) ctx)
      close start .binary [t.withRole .left, o, right.withRole .right])) first

def conditional (rules : Rules) (ctx : ExprContext) : Reader Tree := do
  let start ← mark
  let condition ← operation rules 1 ctx
  let branches (inner : ExprContext) : Reader Tree := do
    op "?"
    let yes ← rules (.single inner)
    op ":"
    let no ← rules (.single ctx)
    close start .ternary
      [condition.withRole .condition, yes.withRole .consequence, no.withRole .alternative]
  branches {} <|> branches { noArrowType := true } <|> return condition

def assignmentOperators : List String := [
  "=", "+=", "-=", "*=", "/=", "%=", "**=", "<<=", ">>=", ">>>=", "&=", "|=", "^=", "&&=", "||=",
  "??="]

/-- Reads an expression without a comma outside brackets. -/
def singleExpression (rules : Rules) (ctx : ExprContext) : Reader Tree :=
  arrowFunction rules ctx
  <|> node .other (do
    keyword "yield"
    let _ ← optional (sym "*")
    let e ← optional (do
      ensure (!(← newlineAhead))
      rules (.single ctx))
    return e)
  <|> do
    let start ← mark
    let left ← conditional rules ctx
    (do
      let _ ← oneOf assignmentOperators
      let right ← rules (.single ctx)
      close start .other [left, right]) <|> return left

/-- Reads an expression, possibly a sequence with commas. -/
def anyExpression (rules : Rules) (ctx : ExprContext) : Reader Tree := do
  let start ← mark
  let first ← rules (.single ctx)
  let more ← many (do sym ","; rules (.single ctx))
  if more.isEmpty then return first else close start .other (first :: more)

end Recast.Tsx
