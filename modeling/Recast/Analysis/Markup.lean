import Recast.Analysis.Note
import Recast.Catalog.Primitives
import Recast.Markup.Node
import Recast.Text.Blank
import Recast.Tsx.Tree

/-!
# Markup of a component

Turns the markup a component returns into framework-independent nodes. Wrapped primitives with a
known native tag are replaced by it; conditions become guards; what is neither markup nor a guard
stays an expression.
-/

set_option autoImplicit false

namespace Recast.Analysis

open Recast.Tsx Recast.Markup Recast.Text

/-- An attribute that handles an event: `on` and a capital letter. -/
def isEventAttribute (name : String) : Bool :=
  match name.toList with
  | 'o' :: 'n' :: c :: _ => isUpper c
  | _ => false

/-! ## Text -/

/-- The words of one line with single blanks between them, and a blank at the start of the first
and at the end of the last line where the source has one. -/
def textLine (isFirst isLast : Bool) (line : List Char) : List Char :=
  let words := joinChars [' '] (wordsChars line)
  let words := if isFirst && line.head?.any isBlank then ' ' :: words else words
  if isLast && line.getLast?.any isBlank && words.getLast? != some ' ' then words ++ [' ']
  else words

/-- The lines of a text run, each reduced, given whether the first of them starts the run. -/
def textLines (isFirst : Bool) : List (List Char) → List (List Char)
  | [] => []
  | [line] => [textLine isFirst true line]
  | line :: rest => textLine isFirst false line :: textLines false rest

/-- What a run of text between tags shows: lines are trimmed and joined by a blank, lines without
content vanish, and blanks at the ends survive only when no line end separates them from the
neighbour. -/
def textValueChars (raw : List Char) : List Char :=
  let lines := splitChar '\n' (replaceChars ['\r', '\n'] ['\n'] raw)
  let reduced := textLines true lines
  joinChars [' '] (if lines.length == 1 then reduced else reduced.filter fun l => stripChars l ≠ [])

def textValue (raw : String) : String := String.ofList (textValueChars raw.toList)

/-! ## Elements -/

structure MarkupContext where
  component : String
  /-- Local variables that stand for a tag. -/
  aliases : Assoc String := []
  normalizePrimitives : Bool := true
  table : Assoc String := Catalog.primitiveTags

/-- An element or a self-closed element, possibly in parentheses. -/
def isMarkupKind (k : Kind) : Bool := k = .element || k = .selfClosingTag

def isMarkup (t : Tree) : Bool := t.unwrap.any fun u => isMarkupKind u.kind

/-- The head of an element with the tag resolved: aliases first, then known primitives. -/
def resolveTag (ctx : MarkupContext) (raw : String) : Noting Head := do
  let tag := (ctx.aliases.get? raw).getD raw
  if tag.toList.contains '.' && ctx.normalizePrimitives then
    match Catalog.nativeTag? tag ctx.table with
    | some native => return { tag := native, sourceTag := some tag }
    | none =>
      warn (ctx.component ++ ": no native element mapped for <" ++ tag ++ ">")
      return { tag }
  return { tag }

def addSpread (head : Head) (container : Tree) : Head :=
  match container.parts.head? with
  | some t =>
    if t.kind = .spread then
      let code := (t.parts.head?.map Tree.text).getD (drop 3 t.text)
      { head with bindings := head.bindings.put spreadKey { code, kind := .spread } }
    else head
  | none => head

def attributeKey (name : String) : String :=
  if name == "className" || name == "class" then classKey else name

def addStatic (head : Head) (key value : String) : Head :=
  { head with attributes := head.attributes.put key value }

/-- Adds a dynamic attribute: a reference, an event handler or a plain expression. -/
def addDynamic (head : Head) (name key code : String) : Head :=
  let entry : String × Binding :=
    if key == refKey then (refKey, { code })
    else if isEventAttribute name then (name, { code, kind := .event })
    else (key, { code })
  { head with bindings := head.bindings.put entry.1 entry.2 }

def addAttribute (head : Head) (t : Tree) : Head :=
  match t.parts with
  | [] => head
  | nameNode :: rest =>
    let name := nameNode.text
    let key := attributeKey name
    -- Content is given by nesting.
    if name == "children" then head
    else match rest.head? with
      -- A name alone means true.
      | none => addStatic head key "true"
      | some value =>
        match value.kind with
        | .stringLiteral => addStatic head key (value.stringValue?.getD "")
        | .container =>
          match value.parts.head? with
          | none => head
          | some e =>
            if e.kind = .stringLiteral then addStatic head key (e.stringValue?.getD "")
            else addDynamic head name key e.text
        | _ => addDynamic head name key value.text

def addTagPart (head : Head) (t : Tree) : Head :=
  match t.kind with
  | .attribute => addAttribute head t
  | .container => addSpread head t
  | _ => head

def headOf (ctx : MarkupContext) (tag : Tree) : Noting Head := do
  let head ← resolveTag ctx (tag.fieldText .name)
  return tag.parts.foldl addTagPart head

def childrenOf (convert : Tree → Noting (List Node)) (t : Tree) : Noting (List Node) := do
  let content := t.parts.filter fun c => c.kind ≠ .openingTag && c.kind ≠ .closingTag
  return (← content.mapM convert).flatten

def elementOf (ctx : MarkupContext) (convert : Tree → Noting (List Node)) (tag : Tree)
    (whole : Option Tree) : Noting Node := do
  let head ← headOf ctx tag
  match whole with
  | none => return .element head []
  | some t =>
    let children ← childrenOf convert t
    -- A void element loses what stands in it.
    if !children.isEmpty && head.isVoid then
      warn (ctx.component ++ ": dropped children of void element <" ++ head.tag ++ ">")
      return .element head []
    return .element head children

/-! ## Expressions among the children -/

/-- The converted node, wrapped in a fragment if there are several. -/
def single? (nodes : List Node) : Option Node :=
  match nodes with
  | [] => none
  | [n] => some n
  | ns => some (.fragment ns)

/-- A branch that is markup, shown under a guard. -/
def guardedBranch (convert : Tree → Noting (List Node)) (guard : String) (branch : Option Tree) :
    Noting (List Node) := do
  match branch.filter isMarkup with
  | none => return []
  | some t => return ((single? (← convert t)).map (Node.guarded guard)).toList

/-- The expressions that stand for the content callers provide. -/
def slotExpressions : List String := ["children", "props.children"]

def expressionChild (convert : Tree → Noting (List Node)) (container : Tree) :
    Noting (List Node) := do
  match container.parts.head?.bind Tree.unwrap with
  | none => return []
  | some e =>
    if slotExpressions.contains e.text then return [.slot "children"]
    match e.kind with
    | .spread => return []
    | .binary =>
      if e.fieldText .operator == "&&" then
        let shown ← guardedBranch convert (e.fieldText .left) (e.field? .right)
        if !shown.isEmpty then return shown
      return [.text e.text true]
    | .ternary =>
      let condition := e.fieldText .condition
      let yes ← guardedBranch convert condition (e.field? .consequence)
      let no ← guardedBranch convert ("!(" ++ condition ++ ")") (e.field? .alternative)
      let shown := yes ++ no
      return if shown.isEmpty then [.text e.text true] else shown
    | _ => return [.text e.text true]

/-! ## The conversion -/

/-- A tag without a name opens a fragment. -/
def isFragment (t : Tree) : Bool :=
  (t.field? .openTag).any fun tag => (tag.field? .name).isNone

def convertNode (ctx : MarkupContext) (convert : Tree → Noting (List Node)) (t : Tree) :
    Noting (List Node) := do
  match t.unwrap with
  | none => return []
  | some t =>
    match t.kind with
    | .element =>
      if isFragment t then return [.fragment (← childrenOf convert t)]
      match t.field? .openTag with
      | some tag => return [← elementOf ctx convert tag (some t)]
      | none => return [.element { tag := "div" } []]
    | .selfClosingTag => return [← elementOf ctx convert t none]
    | .text =>
      let text := textValue t.text
      return if text = "" then [] else [.text text false]
    | .characterReference => return [.text t.text false]
    | .container => expressionChild convert t
    | _ => return [.text t.text true]

def convertUpTo (ctx : MarkupContext) : Nat → Tree → Noting (List Node)
  | 0, _ => return []
  | n + 1, t => convertNode ctx (convertUpTo ctx n) t

def convert (ctx : MarkupContext) (t : Tree) : Noting (List Node) :=
  -- Each step goes down at least one level, so the depth is enough.
  convertUpTo ctx (t.depth + 1) t

/-- Converts the markup a component returns. -/
def convertRoot (ctx : MarkupContext) (t : Tree) : Noting (List Node) := do
  match t.unwrap with
  | none => return []
  | some u =>
    -- A fragment at the top gives its children.
    if u.kind = .element && isFragment u then childrenOf (convert ctx) u else convert ctx u

/-! ## Finding the markup -/

def bodyStatements (function : Tree) : List Tree :=
  match function.field? .body with
  | some body => if body.kind = .block then body.parts else []
  | none => []

/-- The markup a function returns: its expression body, or the last of its own return statements
that returns markup. -/
def returnedMarkup? (function : Tree) : Option Tree :=
  match function.field? .body with
  | none => none
  | some body =>
    let markup (t : Tree) : Option Tree := t.unwrap.filter fun u => isMarkupKind u.kind
    if body.kind ≠ .block then markup body
    else
      let returns := body.parts.filter (·.kind = .returnStatement)
      (returns.filterMap fun r => r.parts.head?.bind markup).getLast?

/-- The tag a local variable stands for: a string, or a branch of a condition that is one, the
second branch first. -/
def aliasedTag? (name : String) (value : Tree) : Option String :=
  match value.kind with
  | .stringLiteral => some ((value.stringValue?.filter (· ≠ "")).getD name)
  | .ternary =>
    let branch (r : Role) : Option String :=
      (((value.field? r).bind Tree.unwrap).bind Tree.stringValue?).filter (· ≠ "")
    branch .alternative <|> branch .consequence
  | _ => none

def tagAliases (function : Tree) : Assoc String :=
  let declarations := (bodyStatements function).filter (·.kind = .constOrLet)
  let declarators := (declarations.flatMap Tree.parts).filter (·.kind = .declarator)
  Assoc.ofEntries (declarators.filterMap fun d => do
    let name := d.fieldText .name
    guard (name.toList.head?.any isUpper)
    let value ← (← d.field? .value).unwrap
    return (name, ← aliasedTag? name value))

end Recast.Analysis
