import Recast.Tsx.Grammar.Expression

/-!
# Statements and declarations

Imports and exports, variable, function and type declarations, and the control statements. A
statement ends at a semicolon, at the end of its block, or at a line end that cannot continue it.
-/

set_option autoImplicit false

namespace Recast.Tsx

/-! ## Imports and exports -/

def moduleSource : Reader Tree := do
  skip
  return (← stringLiteral).withRole .source

/-- Reads a name of an export, which may be quoted. -/
def exportedName : Reader Tree := bindingName <|> (do skip; stringLiteral)

/-- Reads an imported name and the name it is bound to. -/
def renamedImport : Reader (List Tree) := do
  let name ← exportedName
  keyword "as"
  let bound ← bindingName
  return [name.withRole .name, bound.withRole .alias]

/-- Reads an imported name that is bound as it is. -/
def plainImport : Reader (List Tree) := do
  return [(← bindingName).withRole .name]

/-- Reads an item of the names in braces up to the comma or brace behind it. -/
def importItem (p : Reader (List Tree)) : Reader (List Tree) := do
  let r ← p
  lookAhead (sym "," <|> sym "\x7d")
  return r

def importSpecifier : Reader Tree :=
  node .importSpecifier do
    importItem renamedImport <|> importItem plainImport
      <|> (do
        let _ ← oneOfKeywords ["type", "typeof"]
        importItem renamedImport <|> importItem plainImport)

/-- Reads what an import binds besides a default: the whole module under a name, or names in braces. -/
def importGroup : Reader Tree :=
  node .namespaceImport (do
    sym "*"
    keyword "as"
    return [← bindingName])
  <|> node .namedImports (do
    sym "\x7b"
    let specs ← commaList importSpecifier
    sym "\x7d"
    return specs)

def importClause : Reader Tree :=
  node .importClause do
    (do return [← importGroup]) <|> do
      let default ← bindingName
      let more ← optional (do sym ","; importGroup)
      return default :: more

def importFrom : Reader (List Tree) := do
  let clause ← importClause
  keyword "from"
  let source ← moduleSource
  return [clause, source]

def importAttributes (rules : Rules) : Reader Tree := do
  let _ ← oneOfKeywords ["with", "assert"]
  objectLiteral rules

/-- Reads the word that makes an import one of types. -/
def importKind : Reader Tree := leaf .token (oneOfKeywords ["type", "typeof"])

/-- Reads what an import imports: a module, names from a module, or the value of an expression. -/
def importContent (rules : Rules) : Reader (List Tree) :=
  (do return [← moduleSource])
  <|> importFrom
  <|> (do
    let k ← importKind
    return k :: (← importFrom))
  <|> (do
    let _ ← optional importKind
    let name ← bindingName
    op "="
    return [name, ← rules (.expression {})])

def importStatement (rules : Rules) : Reader Tree :=
  node .importStatement do
    keyword "import"
    let content ← importContent rules
    let attributes ← optional (importAttributes rules)
    semicolon
    return content ++ attributes

def exportClause : Reader Tree :=
  node .other do
    sym "\x7b"
    let _ ← commaList (do
      let _ ← optional (do
        let _ ← oneOfKeywords ["type", "typeof"]
        lookAhead (do
          let _ ← exportedName))
      let _ ← exportedName
      optional (do keyword "as"; exportedName))
    sym "\x7d"
    return []

/-! ## Declarations -/

def declarator (rules : Rules) (ctx : ExprContext) : Reader Tree :=
  node .declarator do
    let name ← rules .binding
    let _ ← optional (op "!")
    let type ← optional (ascription rules)
    let value ← optional (do op "="; rules (.single ctx))
    return [name.withRole .name] ++ type.map (·.withRole .type) ++ value.map (·.withRole .value)

/-- Reads a variable declaration without its end. -/
def variableList (rules : Rules) (ctx : ExprContext) : Reader (Kind × List Tree) := do
  let w ← oneOfKeywords ["const", "let", "var"]
  let first ← declarator rules ctx
  let more ← many (do sym ","; declarator rules ctx)
  return (if w == "var" then .varStatement else .constOrLet, first :: more)

def variableStatement (rules : Rules) : Reader Tree := do
  let start ← mark
  let (kind, ds) ← variableList rules {}
  semicolon
  close start kind ds

def interfaceNode (rules : Rules) : Reader Tree :=
  node .interface do
    keyword "interface"
    let name ← bindingName
    let tps ← optional (typeParameters rules)
    let bases ← optional (node .extendsClause do
      keyword "extends"
      let ts ← commaList (rules .type)
      ensure (ts.length > 0)
      return ts)
    let body ← objectType rules
    return [name.withRole .name] ++ tps ++ bases ++ [body.withRole .body]

def typeAliasNode (rules : Rules) : Reader Tree :=
  node .typeAlias do
    keyword "type"
    let name ← bindingName
    let tps ← optional (typeParameters rules)
    op "="
    let value ← rules .type
    sym ";" <|> automaticSemicolon false
    return [name.withRole .name] ++ tps ++ [value.withRole .value]

def enumNode (rules : Rules) : Reader Tree :=
  node .other do
    let _ ← optional (keyword "const")
    keyword "enum"
    let name ← bindingName
    sym "\x7b"
    let members ← commaList (do
      let n ← propertyName rules
      let v ← optional (do op "="; rules (.single {}))
      return n :: v)
    sym "\x7d"
    return name :: members.flatten

def moduleNode (rules : Rules) : Reader Tree :=
  node .other do
    let _ ← (do
        let _ ← oneOfKeywords ["namespace", "module"]
        let _ ← (do skip; let _ ← stringLiteral) <|> (do
          let _ ← bindingName
          let _ ← many (do sym "."; bindingName)))
      <|> (do
        keyword "global"
        lookAhead (sym "\x7b"))
    let body ← optional (rules .block)
    if body.isEmpty then semicolon
    return body

def functionSignature (rules : Rules) : Reader Tree :=
  node .other do
    let _ ← optional (keyword "async")
    keyword "function"
    let _ ← optional (sym "*")
    let name ← bindingName
    let parts ← signature rules
    sym ";" <|> automaticSemicolon false
    return name :: parts

/-- Reads a declaration that can follow `export`. -/
def declaration (rules : Rules) : Reader Tree :=
  functionNode rules .functionDeclaration true
  <|> functionSignature rules
  <|> classNode rules
  <|> enumNode rules
  <|> variableStatement rules
  <|> interfaceNode rules
  <|> typeAliasNode rules
  <|> moduleNode rules
  <|> node .other (do
    keyword "declare"
    return [← functionNode rules .functionDeclaration true
      <|> functionSignature rules
      <|> classNode rules
      <|> enumNode rules
      <|> variableStatement rules
      <|> interfaceNode rules
      <|> typeAliasNode rules
      <|> moduleNode rules])

def exportStatement (rules : Rules) : Reader Tree :=
  node .exportStatement do
    let marks ← decorators rules
    keyword "export"
    let content ← (do
        let _ ← optional (keyword "type")
        sym "*"
        let _ ← optional (do keyword "as"; exportedName)
        keyword "from"
        let s ← moduleSource
        let _ ← optional (importAttributes rules)
        semicolon
        return [s])
      <|> (do
        let _ ← optional (keyword "type")
        let clause ← exportClause
        let s ← optional (do
          keyword "from"
          let s ← moduleSource
          let _ ← optional (importAttributes rules)
          return s)
        semicolon
        return clause :: s)
      <|> (do
        keyword "default"
        (do
          let d ← functionNode rules .functionDeclaration true <|> classNode rules
            <|> interfaceNode rules
          return [d.withRole .declaration]) <|> do
          let e ← rules (.single {})
          semicolon
          return [e.withRole .value])
      <|> (do
        op "="
        let e ← rules (.expression {})
        semicolon
        return [e])
      <|> (do
        keyword "as"
        keyword "namespace"
        let n ← bindingName
        semicolon
        return [n])
      <|> (do return [(← importStatement rules).withRole .declaration])
      <|> (do return [(← declaration rules).withRole .declaration])
    return marks ++ content

/-! ## Control statements -/

def conditionNode (rules : Rules) : Reader Tree := parenthesized rules

/-- Reads the head of a loop over a collection or a counter. -/
def forHead (rules : Rules) : Reader (List Tree) := do
  sym "("
  let start ← mark
  let init ← (do
      let (kind, ds) ← variableList rules { noIn := true }
      return [← close start kind ds])
    <|> (do return [← rules (.expression { noIn := true })])
    <|> return []
  let rest ← (do
      let _ ← oneOfKeywords ["of", "in"]
      return [← rules (.expression {})])
    <|> (do
      sym ";"
      let test ← optional (rules (.expression {}))
      sym ";"
      let step ← optional (rules (.expression {}))
      return test ++ step)
  sym ")"
  return init ++ rest

def switchClause (rules : Rules) : Reader (List Tree) := do
  let test ← (do
      keyword "case"
      return [← rules (.expression {})])
    <|> (do keyword "default"; return [])
  sym ":"
  let body ← many (do
    notAhead (oneOfKeywords ["case", "default"])
    rules .statement)
  return test ++ body

/-- Reads a control statement, given its first word. -/
def controlStatement (rules : Rules) (w : String) : Reader Tree :=
  match w with
  | "if" => node .other do
    keyword "if"
    let c ← conditionNode rules
    let yes ← rules .statement
    let no ← optional (do keyword "else"; rules .statement)
    return c :: yes :: no
  | "for" => node .other do
    keyword "for"
    let _ ← optional (keyword "await")
    let head ← forHead rules
    return head ++ [← rules .statement]
  | "while" => node .other do
    keyword "while"
    let c ← conditionNode rules
    return [c, ← rules .statement]
  | "do" => node .other do
    keyword "do"
    let body ← rules .statement
    keyword "while"
    let c ← conditionNode rules
    let _ ← optional semicolon
    return [body, c]
  | "switch" => node .other do
    keyword "switch"
    let c ← conditionNode rules
    sym "\x7b"
    let clauses ← many (switchClause rules)
    sym "\x7d"
    return c :: clauses.flatten
  | "try" => node .other do
    keyword "try"
    let body ← rules .block
    let handler ← optional (do
      keyword "catch"
      let p ← optional (do
        sym "("
        let b ← rules .binding
        let type ← optional (ascription rules)
        sym ")"
        return b :: type)
      return p.flatten ++ [← rules .block])
    let closing ← optional (do keyword "finally"; rules .block)
    return body :: handler.flatten ++ closing
  | "throw" => node .other do
    keyword "throw"
    let e ← rules (.expression {})
    semicolon
    return [e]
  | "return" => node .returnStatement do
    keyword "return"
    (do
      sym ";" <|> automaticSemicolon false
      return []) <|> do
      let e ← rules (.expression {})
      semicolon
      return [e]
  | "with" => node .other do
    keyword "with"
    let c ← conditionNode rules
    return [c, ← rules .statement]
  | "break" | "continue" => node .other do
    let _ ← oneOfKeywords ["break", "continue"]
    let l ← optional (do
      ensure (!(← newlineAhead))
      identifier)
    semicolon
    return l
  | "debugger" => node .other do
    keyword "debugger"
    semicolon
    return []
  | _ => failure

def expressionStatement (rules : Rules) : Reader Tree :=
  node .expressionStatement do
    let e ← rules (.expression {})
    semicolon
    return [e]

def wordStatement (rules : Rules) : Reader Tree := do
  let w ← lookAhead word
  controlStatement rules w <|>
    (match w with
    | "import" => importStatement rules <|> expressionStatement rules
    | "export" => exportStatement rules
    | "class" | "const" | "var" | "enum" => declaration rules
    | "function" | "async" | "let" | "interface" | "type" | "namespace" | "module" | "declare" | "abstract"
    | "global" => declaration rules <|> expressionStatement rules
    | _ =>
      node .other (do
        let label ← identifier
        sym ":"
        return [label, ← rules .statement])
      <|> expressionStatement rules)

def anyStatement (rules : Rules) : Reader Tree := do
  match ← ahead with
  | [] => failure
  | '{' :: _ => rules .block
  | ';' :: _ => leaf .other (sym ";")
  | '@' :: _ => exportStatement rules <|> classNode rules
  | c :: _ => if isWordChar c && !c.isDigit then wordStatement rules else expressionStatement rules

/-- Passes over a comment as in HTML, which ends with its line. -/
def htmlComment : Reader Unit := do
  skip
  chars "<!--" <|> chars "-->"
  let _ ← takeWhile fun c => !(c == '\n' || c.toNat == 0x2028 || c.toNat == 0x2029)

/-- Passes over comments as in HTML. They stand only where no operator can. -/
def htmlComments : Reader Unit := do
  let _ ← many htmlComment

/-- Reads statements one after the other. -/
def statementList (rules : Rules) : Reader (List Tree) := do
  htmlComments
  many (do
    let s ← rules .statement
    htmlComments
    return s)

def anyBlock (rules : Rules) : Reader Tree :=
  node .block do
    sym "\x7b"
    let statements ← statementList rules
    sym "\x7d"
    return statements

def program (rules : Rules) : Reader Tree :=
  node .program do
    -- A first line that names an interpreter is passed over.
    let _ ← optional (do
      chars "#!"
      takeWhile fun c => !endsLine c)
    let statements ← statementList rules
    skip
    ensure ((← get).rest.isEmpty)
    return statements

end Recast.Tsx
