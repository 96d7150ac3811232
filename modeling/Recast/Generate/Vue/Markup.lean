import Recast.Generate.Layout
import Recast.Generate.Plan

/-!
# Vue templates

Chooses the attributes of each element, spells them and lays the template out. Guards are directives: on the
guarded element, or on a wrapper around anything else.
-/

set_option autoImplicit false

namespace Recast.Generate.Vue

open Recast.Markup Recast.ClassExpr

/-- The variable of the forwarded reference. -/
def refName (m : Metadata) : String :=
  let param := (m.refForward.map (·.paramName)).getD refKey
  -- The plain name means something else in scripts.
  if param = refKey then "elementRef" else param

/-- What the variables of renamed props stand for, given how to refer to a prop. -/
def renamesOf (c : Component) (refer : String → String) : Assoc String :=
  Assoc.ofEntries (c.props.filterMap fun p =>
    (p.localName.filter (· ≠ "")).map fun name => (name, refer p.name))

structure Setting where
  component : Component
  metadata : Metadata

namespace Setting

def variantName (s : Setting) : Option String := s.metadata.variant.map (·.name)

/-- Templates reach props by their public names. -/
def renames (s : Setting) : Assoc String := renamesOf s.component id

end Setting

def placeholder : String := "<slot />"

/-- An expression of the source in terms of the template. -/
def expression (s : Setting) (code : String) : String :=
  renameIdentifiers (stripPropsAccess code) s.renames

def quotedExpression (s : Setting) (code : String) : String :=
  "\"" ++ attributeSafeQuotes (expression s code) ++ "\""

def classExpression (s : Setting) (code : String) : String :=
  adapt (renameIdentifiers code s.renames) .vue s.variantName

/-! ## Attributes -/

/-- What follows `on` in the name of an event attribute. -/
def eventSubject? (name : String) : Option (List Char) :=
  (Text.after? "on".toList (withoutLineFeed name.toList)).filter isCapitalWord

def eventName (name : String) : String :=
  match eventSubject? name with
  | some subject => String.ofList (Text.lowerChars subject)
  | none => Text.lower name

def classAttribute (h : Head) : List Attribute :=
  match h.bindings.get? classKey with
  | some b => [.classExpression b.code]
  | none => ((h.attributes.get? classKey).map Attribute.classText).toList

/-- A binding that is written like a plain attribute. -/
def expressionAttribute? (entry : String × Binding) : Option Attribute :=
  if entry.1 = classKey ∨ entry.1 = refKey ∨ entry.1 = spreadKey ∨ entry.2.kind ≠ .expression then none
  else some (.expression (attributeName entry.1) entry.2.code)

def eventAttribute? (entry : String × Binding) : Option Attribute :=
  if entry.2.kind = .event then some (.event (eventName entry.1) entry.2.code) else none

/-- The attributes of an element in the order they are written: the class, static attributes,
expressions, what it gains, the reference, events, and the rest of the props. -/
def attributesOf (c : Component) (m : Metadata) (h : Head) (isRoot : Bool) : List Attribute :=
  classAttribute h
    ++ (h.attributes.filter (·.1 ≠ classKey)).map (fun a => Attribute.static (attributeName a.1) a.2)
    ++ h.bindings.filterMap expressionAttribute?
    ++ (gains c m h isRoot).map Attribute.gained
    -- The variable of the reference is the component's, whatever the element names.
    ++ ((h.bindings.get? refKey).map fun b => Attribute.ref b.code).toList
    ++ h.bindings.filterMap eventAttribute?
    ++ (if h.hasSpread then [Attribute.spread] else [])

def gainedText (g : Gained) : String :=
  match g.value with
  | .static text => g.name ++ "=\"" ++ text ++ "\""
  | .variable name => ":" ++ g.name ++ "=\"" ++ name ++ "\""
  | .prop name => ":" ++ g.name ++ "=\"" ++ name ++ "\""
  | .event handler => "@" ++ eventName g.name ++ "=\"" ++ handler ++ "\""

def attributeText (s : Setting) : Attribute → String
  | .classExpression code => ":class=\"" ++ classExpression s code ++ "\""
  | .classText text => "class=\"" ++ text ++ "\""
  | .static name value => name ++ "=\"" ++ value ++ "\""
  | .expression name code => ":" ++ name ++ "=" ++ quotedExpression s code
  | .gained g => gainedText g
  | .ref _ => "ref=\"" ++ refName s.metadata ++ "\""
  | .event name code => "@" ++ name ++ "=" ++ quotedExpression s code
  | .spread => "v-bind=\"$attrs\""

/-! ## Elements -/

/-- The tag of an element. Wrapped primitives are dynamic components. -/
def tagName (h : Head) : String := if h.isWrappedPrimitive then "component" else h.tag

def opening (s : Setting) (h : Head) (isRoot : Bool) (directive : Option String) : String :=
  openingTag (tagName h)
    ((if h.isWrappedPrimitive then [":is=\"" ++ h.tag ++ "\""] else [])
      ++ directive.toList
      ++ (attributesOf s.component s.metadata h isRoot).map (attributeText s))

def textSpelling (s : Setting) (content : String) (isExpression : Bool) : String :=
  if isExpression then "\x7b\x7b " ++ expression s content ++ " \x7d\x7d" else content

/-- Wraps what takes no directive of its own. `inside` are its lines one step further in. -/
def wrapped (depth : Nat) (directive : String) (inside : List String) : List String :=
  [pad depth ++ "<template " ++ directive ++ ">"] ++ inside ++ [pad depth ++ "</template>"]

def guardDirective (s : Setting) (guard : String) : String := "v-if=" ++ quotedExpression s guard

mutual
/-- The lines of a node under a directive. `rootAhead` says that no element stands in front of
it. -/
def nodeLines (s : Setting) (rootAhead : Bool) (depth : Nat) (directive : Option String) :
    Node → Except Report (List String)
  | .element h children => do
    let content := layout (depth + 1) (← pieces s false (depth + 1) children)
    let content :=
      if content.isEmpty && needsPlaceholder h children then [pad (depth + 1) ++ placeholder]
      else content
    return elementLines depth (opening s h rootAhead directive) (tagName h)
      (closesItself h children) (isInlineContent children) content
  | .guarded guard child =>
    match directive with
    | none => nodeLines s rootAhead depth (some (guardDirective s guard)) child
    | some d => do
      return wrapped depth d
        (← nodeLines s rootAhead (depth + 1) (some (guardDirective s guard)) child)
  | .text content isExpression =>
    let spelled := textSpelling s content isExpression
    match directive with
    | none => return [pad depth ++ spelled]
    | some d => return wrapped depth d [pad (depth + 1) ++ spelled]
  | .fragment children =>
    match directive with
    | none => return layout depth (← pieces s rootAhead depth children)
    | some d => return wrapped depth d (layout (depth + 1) (← pieces s rootAhead (depth + 1) children))
  | .slot _ =>
    match directive with
    | none => return [pad depth ++ placeholder]
    | some d => return wrapped depth d [pad (depth + 1) ++ placeholder]
  | .foreign typeName => throw (Node.unhandled typeName)
def pieces (s : Setting) (rootAhead : Bool) (depth : Nat) : List Node → Except Report (List Piece)
  | [] => return []
  | n :: ns => do
    let piece ←
      match n with
      | .text content isExpression => pure (Piece.inline (textSpelling s content isExpression))
      | n => Piece.block <$> nodeLines s rootAhead depth none n
    -- Behind the first element the root is no longer ahead.
    return piece :: (← pieces s (rootAhead && !hasElement n) depth ns)
end

def forestLines (s : Setting) (rootAhead : Bool) : List Node → Except Report (List String)
  | [] => return []
  | n :: ns => do
    let lines ← nodeLines s rootAhead 0 none n
    return lines ++ (← forestLines s (rootAhead && !hasElement n) ns)

def template (s : Setting) (nodes : List Node) : Except Report String := do
  return Text.join "\n" (← forestLines s true nodes)

def callsMerge (s : Setting) (nodes : List Node) : Bool :=
  (Node.preorderList nodes).any fun
    | .element h _ => (h.bindings.get? classKey).any fun b => usesMerge (classExpression s b.code)
    | _ => false

end Recast.Generate.Vue
