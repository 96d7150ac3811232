import Recast.Tsx.Grammar.Basic

/-!
# Types

Type annotations matter to the analyses in a few shapes only: the members of an object type, the
two operands of an intersection, and the text of everything else.
-/

set_option autoImplicit false

namespace Recast.Tsx

def ascription (rules : Rules) : Reader Tree :=
  node .ascription do
    sym ":"
    return [← rules .type]

def typeArguments (rules : Rules) : Reader Tree :=
  node .typeArguments do
    sym "<"
    let args ← commaList (rules .type)
    sym ">"
    ensure (args.length > 0)
    return args

def typeParameter (rules : Rules) : Reader Tree :=
  node .other do
    let _ ← many (oneOfKeywords ["const", "in", "out"] >>= fun _ => lookAhead word)
    let name ← bindingName
    let bound ← optional (do keyword "extends"; rules .type)
    let default ← optional (do op "="; rules .type)
    return name :: bound ++ default

def typeParameters (rules : Rules) : Reader Tree :=
  node .other do
    sym "<"
    let params ← commaList (typeParameter rules)
    sym ">"
    ensure (params.length > 0)
    return params

def decorators (rules : Rules) : Reader (List Tree) :=
  many (node .other do
    sym "@"
    return [← rules .unary])

def parameter (rules : Rules) : Reader Tree :=
  node .parameter do
    let marks ← decorators rules
    let _ ← many (do
      let _ ← oneOfKeywords ["public", "private", "protected", "readonly", "override"]
      match ← ahead with
      | c :: _ => ensure (isWordChar c || c == '{' || c == '[')
      | [] => failure)
    let pattern ← (node .restPattern do sym "..."; return [← rules .binding]) <|> rules .binding
    let question ← optional (tokenNode "?")
    let type ← optional (ascription rules)
    let value ← optional (do op "="; rules (.single {}))
    return marks ++ [pattern.withRole .pattern] ++ question ++ type.map (·.withRole .type)
      ++ value.map (·.withRole .value)

def parameters (rules : Rules) : Reader Tree :=
  node .parameters do
    sym "("
    let ps ← commaList (parameter rules)
    sym ")"
    return ps

/-- Reads the name of a property: a word, a private name, a literal, or an expression in
brackets. -/
def propertyName (rules : Rules) : Reader Tree :=
  leaf .propertyName word
    <|> leaf .other (do sym "#"; word)
    <|> (do skip; stringLiteral)
    <|> (do skip; number)
    <|> node .computedName (do
      sym "["
      let e ← rules (.expression {})
      sym "]"
      return [e])

/-- Reads a predicate that a result type states of a parameter. -/
def typePredicate (rules : Rules) : Reader Tree :=
  node .other do
    let _ ← optional (do keyword "asserts"; lookAhead word)
    let _ ← word
    keyword "is"
    return [← rules .type]

/-- Reads `asserts x` in a result type. -/
def assertion : Reader Tree := leaf .other do
  keyword "asserts"
  word

def resultType (rules : Rules) : Reader Tree :=
  node .ascription do
    sym ":"
    return [← typePredicate rules <|> assertion <|> rules .type]

def signature (rules : Rules) : Reader (List Tree) := do
  let tps ← optional (typeParameters rules)
  let ps ← parameters rules
  let result ← optional (resultType rules)
  return tps ++ [ps.withRole .parameters] ++ result

/-- Reads an index signature or a mapped-type clause. -/
def indexSignature (rules : Rules) : Reader Tree :=
  node .other do
    let _ ← optional (do
      let _ ← optional (sym "-" <|> sym "+")
      keyword "readonly")
    sym "["
    let name ← bindingName
    let rest ← (do sym ":"; return [← rules .type]) <|> (do
      keyword "in"
      let domain ← rules .type
      let renamed ← optional (do keyword "as"; rules .type)
      return domain :: renamed)
    sym "]"
    let _ ← optional (sym "-?" <|> sym "+?" <|> sym "?")
    let value ← optional (ascription rules)
    return name :: rest ++ value

/-- Reads a method, accessor, call or construct signature. -/
def methodSignature (rules : Rules) : Reader Tree :=
  node .other do
    let head ← (do
        let _ ← optional (oneOfKeywords ["get", "set", "async"] >>= fun _ =>
          lookAhead (propertyName rules))
        let name ← propertyName rules
        let _ ← optional (sym "?")
        return [name]) <|> (do keyword "new"; return []) <|> return []
    return head ++ (← signature rules)

def propertySignature (rules : Rules) : Reader Tree :=
  node .propertySignature do
    let _ ← many (oneOfKeywords
        ["readonly", "public", "private", "protected", "static", "declare", "override"]
      >>= fun _ => lookAhead (propertyName rules))
    let name ← propertyName rules
    let question ← optional (tokenNode "?")
    let type ← optional (ascription rules)
    return [name.withRole .name] ++ question ++ type.map (·.withRole .type)

/-- Reads the comments in front of the next member, as nodes. -/
def memberComments : Reader (List Tree) := do
  let t ← readTrivia
  return t.comments.map fun c => .mk .comment .none (String.ofList c) []

/-- Reads one member with the comments in front of it and the separator after it. -/
def typeMember (rules : Rules) : Reader (List Tree) := do
  let before ← memberComments
  let member ← methodSignature rules <|> indexSignature rules <|> propertySignature rules
  let trailing ← (do
    let cs ← memberComments
    sym "," <|> sym ";"
    return cs) <|> (do automaticSemicolon false; return [])
  return before ++ [member] ++ trailing

/-- Reads the members of an object type or an interface. -/
def objectType (rules : Rules) : Reader Tree :=
  node .objectType do
    sym "\x7b"
    let _ ← optional (sym "," <|> sym ";")
    let members ← many (typeMember rules)
    let last ← memberComments
    sym "\x7d"
    return members.flatten ++ last

def tupleElement (rules : Rules) : Reader Tree :=
  node .other do
    let _ ← optional (sym "...")
    let label ← optional (do
      let n ← bindingName
      let _ ← optional (sym "?")
      sym ":"
      return n)
    let type ← rules .type
    let _ ← optional (sym "?")
    return label ++ [type]

def templateType (rules : Rules) : Reader Tree :=
  node .other do
    chars "`"
    let parts ← many ((do takeSome (fun c => c != '`' && c != '\\' && c != '$'); return [])
      <|> (do escape; return [])
      <|> (do
        chars "$\x7b"
        let t ← rules .type
        sym "\x7d"
        return [t])
      <|> (do chars "$"; return []))
    chars "`"
    return parts.flatten

def typeReference (rules : Rules) : Reader Tree :=
  node .other do
    let name ← bindingName
    let more ← many (do sym "."; bindingName)
    let args ← optional (typeArguments rules)
    return name :: more ++ args

/-- Reads the type of a value: `typeof` and a possibly indexed path. -/
def typeQuery (rules : Rules) : Reader Tree :=
  node .other do
    keyword "typeof"
    let head ← node .other (do
        keyword "import"
        sym "("
        let s ← rules (.single {})
        sym ")"
        return [s]) <|> bindingName
    let more ← many (do
      let _ ← (do op "."; pure ()) <|> op "?."
      bindingName)
    let args ← optional (typeArguments rules)
    return head :: more ++ args

/-- Reads a type that stands on its own. -/
def primaryType (rules : Rules) : Reader Tree := do
  match ← ahead with
  | '{' :: _ => objectType rules
  | '[' :: _ => node .other do
    sym "["
    let elements ← commaList (tupleElement rules)
    sym "]"
    return elements
  | '(' :: _ => node .other do
    sym "("
    let t ← rules .type
    sym ")"
    return [t]
  | '`' :: _ => do skip; templateType rules
  | '"' :: _ => do skip; stringLiteral
  | '\'' :: _ => do skip; stringLiteral
  | '-' :: _ => node .other do
    sym "-"
    return [← number]
  | c :: _ =>
    if c.isDigit || c == '.' then do skip; number
    else
      typeQuery rules
        <|> node .other (do
          keyword "import"
          sym "("
          let s ← rules (.single {})
          sym ")"
          let more ← many (do sym "."; bindingName)
          let args ← optional (typeArguments rules)
          return s :: more ++ args)
        <|> typeReference rules
  | [] => failure

/-- Reads array and lookup brackets after a type, on the same line. -/
def postfixType (rules : Rules) : Reader Tree := do
  let start ← mark
  let first ← primaryType rules
  extend (fun t => do
    ensure (!(← newlineAhead))
    sym "["
    let index ← optional (rules .type)
    sym "]"
    close start .other (t :: index)) first

/-- The words that build a type from the one after them. -/
def typeOperators : List String := ["keyof", "unique", "readonly", "infer", "asserts"]

/-- Reads a type with the words in front of it. A type that is inferred may have a bound, unless a
question mark behind the bound makes a condition of it. -/
def unaryType (rules : Rules) (inCondition : Bool) : Reader Tree := do
  let start ← mark
  let ops ← many (do
    let w ← oneOfKeywords typeOperators
    match ← ahead with
    | c :: _ => ensure (isWordChar c || "([\x7b\"'`".toList.contains c)
    | [] => failure
    return w)
  let t ← postfixType rules
  if ops.isEmpty then return t
  let bound ← if ops.contains "infer"
    then optional (do
      keyword "extends"
      let b ← rules (.type true)
      if !inCondition then notAhead (op "?")
      return b)
    else pure []
  close start .other (t :: bound)

/-- Reads operands joined by one type operator, the leftmost pair innermost. -/
def joinedType (kind : Kind) (sign : String) (operand : Reader Tree) : Reader Tree := do
  let start ← mark
  let leading ← optional (op sign)
  let first ← operand
  let first ← if leading.isEmpty then pure first else close start kind [first]
  extend (fun t => do
    op sign
    let right ← operand
    close start kind [t, right]) first

def functionType (rules : Rules) (inCondition : Bool) : Reader Tree :=
  node .other do
    let _ ← optional (do
      let _ ← optional (keyword "abstract")
      keyword "new")
    let tps ← optional (typeParameters rules)
    let ps ← parameters rules
    op "=>"
    return tps ++ [ps, ← typePredicate rules <|> assertion <|> rules (.type inCondition)]

/-- Reads a condition on a type, given how to read the bound. -/
def conditionalType (rules : Rules) (start : Cursor) (t : Tree) (bound : Reader Tree) : Reader Tree := do
  ensure (!(← newlineAhead))
  keyword "extends"
  let bound ← bound
  op "?"
  let yes ← rules .type
  op ":"
  let no ← rules .type
  close start .other [t, bound, yes, no]

def anyType (rules : Rules) (inCondition : Bool) : Reader Tree :=
  functionType rules inCondition <|> do
    let start ← mark
    let t ← joinedType .other "|" (joinedType .intersectionType "&"
      (functionType rules inCondition <|> unaryType rules inCondition))
    if inCondition then return t
    conditionalType rules start t (rules (.type true)) <|> conditionalType rules start t (rules .type)
      <|> return t

end Recast.Tsx
