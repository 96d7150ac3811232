import Recast.Analysis.ForwardRef
import Recast.Analysis.Imports
import Recast.Analysis.Markup

/-!
# Components of a source

Which top-level declarations are components, and the state and effects in their bodies.
-/

set_option autoImplicit false

namespace Recast.Analysis

open Recast.Tsx Recast.Text

inductive Declared where
  /-- A name for a part of a primitive. -/
  | reExport (target : String)
  | function (function : Tree)
  /-- A wrapper call with the render function passed to it. -/
  | forwardRef (call : Tree) (render : Option Tree)

structure Discovered where
  name : String
  declared : Declared
  text : String

def isComponentName (name : String) : Bool := name.toList.head?.any isUpper

def isPrimitiveMember (t : Tree) : Bool :=
  t.kind = .member && (t.field? .object).any fun o =>
    o.kind = .identifier && Catalog.isPrimitiveNamespace o.text

def ofDeclarator? (d : Tree) : Option Discovered := do
  let name ← (d.field? .name).filter (·.kind = .identifier)
  let value ← (← d.field? .value).unwrap
  guard (isComponentName name.text)
  let found (declared : Declared) : Discovered := ⟨name.text, declared, d.text⟩
  if isForwardRefCall value then return found (.forwardRef value (renderFunction? value))
  if isPrimitiveMember value then return found (.reExport value.text)
  if isFunctionValue value then return found (.function value)
  none

def ofFunction? (f : Tree) : Option Discovered :=
  let name := f.fieldText .name
  if isComponentName name then some ⟨name, .function f, f.text⟩ else none

/-- A top-level statement, or what an export statement exports. -/
def exportedDeclarations (statement : Tree) : List Tree :=
  if statement.kind = .exportStatement then
    match statement.field? .declaration with
    | some d => [d]
    | none => statement.parts.filter fun c =>
        c.kind = .functionDeclaration || c.kind = .functionExpression
  else [statement]

/-- The components of a source, in order. -/
def discover (root : Tree) : List Discovered :=
  ((topLevel root).flatMap exportedDeclarations).flatMap fun d =>
    match d.kind with
    | .constOrLet | .varStatement =>
      (d.parts.filter (·.kind = .declarator)).filterMap ofDeclarator?
    | .functionDeclaration | .functionExpression => (ofFunction? d).toList
    | _ => []

/-! ## State and effects -/

def stateHooks : List String := ["useState", "React.useState"]

def effectHooks : List String :=
  ["useEffect", "React.useEffect", "useLayoutEffect", "React.useLayoutEffect"]

def argumentsOf (call : Tree) : List Tree :=
  ((call.field? .arguments).map Tree.parts).getD []

def isCallOfAny (names : List String) (t : Tree) : Bool :=
  t.kind = .call && names.contains (t.fieldText .callee)

/-- The state variable that a declarator introduces, with its initial value. -/
def stateOf? (d : Tree) : Option (String × String) := do
  let pattern ← (d.field? .name).filter (·.kind = .arrayPattern)
  let value ← (← d.field? .value).unwrap
  guard (isCallOfAny stateHooks value)
  let name ← (pattern.parts.filter (·.kind = .identifier)).head?
  return (name.text, ((argumentsOf value).head?.map Tree.text).getD "undefined")

def stateVariables (function : Tree) : Assoc String :=
  let declarations := (bodyStatements function).filter (·.kind = .constOrLet)
  Assoc.ofEntries ((declarations.flatMap Tree.parts).filterMap stateOf?)

def commonStart : List Char → List Char → List Char
  | a :: as, b :: bs => if a = b then a :: commonStart as bs else []
  | _, _ => []

/-- Takes the indentation that all lines with content share off every line. -/
def dedent (text : List Char) : List Char :=
  let isIndent (c : Char) : Bool := c == ' ' || c == '\t'
  -- Lines of blanks and tabs alone become empty.
  let lines := (splitChar '\n' text).map fun l => if l.all isIndent then [] else l
  let margins := (lines.filter (· ≠ [])).map fun l => l.takeWhile isIndent
  let margin :=
    match margins with
    | [] => []
    | m :: ms => ms.foldl commonStart m
  joinChars ['\n'] (lines.map fun l => (after? margin l).getD l)

/-- The body of an effect without its braces and indentation. -/
def effectBody (callback : Tree) : String :=
  match callback.field? .body with
  | none => ""
  | some body =>
    let text := if body.kind = .block then (body.text.toList.drop 1).dropLast else body.text.toList
    String.ofList (stripChars (dedent (trimWhile (· == '\n') text)))

def effectOf? (statement : Tree) : Option String := do
  guard (statement.kind = .expressionStatement)
  let call ← (← statement.parts.head?).unwrap
  guard (isCallOfAny effectHooks call)
  let callback ← (argumentsOf call).head?
  guard (isFunctionValue callback)
  let body := effectBody callback
  guard (body ≠ "")
  return body

def effectsOf (function : Tree) : List String := (bodyStatements function).filterMap effectOf?

/-! ## Base classes -/

def isAnyQuote (c : Char) : Bool := c == '"' || c == '\'' || c == '`'

/-- A text between two quotes of any kind, at least one character long and without quotes. -/
def quotedRun? (cs : List Char) : Option String := do
  guard (cs.head?.any isAnyQuote)
  let body := (cs.drop 1).takeWhile (!isAnyQuote ·)
  guard (body ≠ [] && body.length < (cs.drop 1).length)
  return String.ofList body

/-- Recognizes a string as the first argument of the class-merge helper. -/
def mergedClasses? (cs : List Char) : Option String := do
  let rest ← after? "cn".toList cs
  let rest ← after? ['('] (rest.dropWhile isBlank)
  quotedRun? (rest.dropWhile isBlank)

def literalClasses? (cs : List Char) : Option String := do
  let rest ← after? "className".toList cs
  let rest ← after? ['='] (rest.dropWhile isBlank)
  quotedRun? (rest.dropWhile isBlank)

/-- The first string passed to the class-merge helper, else the first literal class attribute. -/
def baseClassesIn? (source : String) : Option String :=
  firstMatch? mergedClasses? source.toList <|> firstMatch? literalClasses? source.toList

end Recast.Analysis
