import Recast.Generate.Layout
import Recast.Generate.Plan

/-!
# Svelte markup

Chooses the attributes of each element, spells them and lays the markup out.
-/

set_option autoImplicit false

namespace Recast.Generate.Svelte

open Recast.Markup Recast.ClassExpr

/-- What rendering depends on. -/
structure Setting where
  component : Component
  metadata : Metadata
  runes : Bool

namespace Setting

def variantName (s : Setting) : Option String := s.metadata.variant.map (·.name)

/-- Where the content of callers goes. -/
def placeholder (s : Setting) : String :=
  if s.runes then "\x7b@render children?.()\x7d" else "<slot />"

/-- The variable with the props that are not bound. -/
def restProps (s : Setting) : String := if s.runes then "restProps" else "$$restProps"

end Setting

def braced (code : String) : String := "\x7b" ++ code ++ "\x7d"

/-! ## Attributes -/

/-- What follows `on` in the name of an event attribute. -/
def eventSubject? (name : String) : Option (List Char) :=
  (Text.after? "on".toList (withoutLineFeed name.toList)).filter isCapitalWord

def eventName (name : String) : String :=
  match eventSubject? name with
  | some subject => String.ofList (Text.lowerChars subject)
  | none => Text.lower name

def classAttribute (h : Head) : List Attribute :=
  match h.bindings.get? classKey with
  | some b => [.classExpression b.code]
  | none => ((h.attributes.get? classKey).map Attribute.classText).toList

/-- A binding that is written like a plain attribute. -/
def expressionAttribute? (entry : String × Binding) : Option Attribute :=
  if entry.1 = classKey ∨ entry.1 = refKey ∨ entry.1 = spreadKey ∨ entry.2.kind ≠ .expression then none
  else some (.expression (attributeName entry.1) entry.2.code)

def eventAttribute? (entry : String × Binding) : Option Attribute :=
  if entry.2.kind = .event then some (.event (eventName entry.1) entry.2.code) else none

/-- The attributes of an element in the order they are written: the class, static attributes,
expressions, what it gains, the reference, events, and the rest of the props. -/
def attributesOf (c : Component) (m : Metadata) (h : Head) (isRoot : Bool) : List Attribute :=
  classAttribute h
    ++ (h.attributes.filter (·.1 ≠ classKey)).map (fun a => Attribute.static (attributeName a.1) a.2)
    ++ h.bindings.filterMap expressionAttribute?
    ++ (gains c m h isRoot).map Attribute.gained
    ++ ((h.bindings.get? refKey).map fun b => Attribute.ref b.code).toList
    ++ h.bindings.filterMap eventAttribute?
    ++ (if h.hasSpread then [Attribute.spread] else [])

def eventAttribute (s : Setting) (event : String) : String :=
  (if s.runes then "on" else "on:") ++ event

def gainedText (s : Setting) (g : Gained) : String :=
  match g.value with
  | .static text => g.name ++ "=\"" ++ text ++ "\""
  | .variable name => g.name ++ "=" ++ braced name
  | .prop name => g.name ++ "=" ++ braced (localName s.component name)
  | .event handler => eventAttribute s (eventName g.name) ++ "=" ++ braced handler

def attributeText (s : Setting) : Attribute → String
  | .classExpression code => "class=" ++ braced (adapt code .svelte s.variantName)
  | .classText text => "class=\"" ++ text ++ "\""
  | .static name value => name ++ "=\"" ++ value ++ "\""
  | .expression name code => name ++ "=" ++ braced (stripPropsAccess code)
  | .gained g => gainedText s g
  | .ref code => "bind:this=" ++ braced (stripPropsAccess code)
  | .event name code => eventAttribute s name ++ "=" ++ braced (stripPropsAccess code)
  | .spread => braced ("..." ++ s.restProps)

/-! ## Elements -/

/-- The tag of an element. Wrapped primitives are dynamic components. -/
def tagName (h : Head) : String := if h.isWrappedPrimitive then "svelte:component" else h.tag

def opening (s : Setting) (h : Head) (isRoot : Bool) : String :=
  openingTag (tagName h)
    ((if h.isWrappedPrimitive then ["this=" ++ braced h.tag] else [])
      ++ (attributesOf s.component s.metadata h isRoot).map (attributeText s))

def textSpelling (content : String) (isExpression : Bool) : String :=
  if isExpression then braced (stripPropsAccess content) else content

mutual
/-- The lines of a node. `rootAhead` says that no element stands in front of it. -/
def nodeLines (s : Setting) (rootAhead : Bool) (depth : Nat) : Node → Except Report (List String)
  | .element h children => do
    if h.isVoid then return elementLines depth (opening s h rootAhead) (tagName h) true true []
    let content := layout (depth + 1) (← pieces s false (depth + 1) children)
    let content :=
      if content.isEmpty && needsPlaceholder h children then [pad (depth + 1) ++ s.placeholder]
      else content
    return elementLines depth (opening s h rootAhead) (tagName h) false (isInlineContent children)
      content
  | .text content isExpression => return [pad depth ++ textSpelling content isExpression]
  | .fragment children => return layout depth (← pieces s rootAhead depth children)
  | .guarded guard child => do
    let inside ← nodeLines s rootAhead (depth + 1) child
    return [pad depth ++ "\x7b#if " ++ stripPropsAccess guard ++ "\x7d"] ++ inside
      ++ [pad depth ++ "\x7b/if\x7d"]
  | .slot _ => return [pad depth ++ s.placeholder]
  | .foreign typeName => throw (Node.unhandled typeName)
def pieces (s : Setting) (rootAhead : Bool) (depth : Nat) : List Node → Except Report (List Piece)
  | [] => return []
  | n :: ns => do
    let piece ←
      match n with
      | .text content isExpression => pure (Piece.inline (textSpelling content isExpression))
      | n => Piece.block <$> nodeLines s rootAhead depth n
    -- Behind the first element the root is no longer ahead.
    return piece :: (← pieces s (rootAhead && !hasElement n) depth ns)
end

def forestLines (s : Setting) (rootAhead : Bool) : List Node → Except Report (List String)
  | [] => return []
  | n :: ns => do
    let lines ← nodeLines s rootAhead 0 n
    return lines ++ (← forestLines s (rootAhead && !hasElement n) ns)

def markup (s : Setting) (nodes : List Node) : Except Report String := do
  return Text.join "\n" (← forestLines s true nodes)

/-- Whether the class of some element calls the merging helper. -/
def callsMerge (s : Setting) (nodes : List Node) : Bool :=
  (Node.preorderList nodes).any fun
    | .element h _ =>
      (h.bindings.get? classKey).any fun b => usesMerge (adapt b.code .svelte s.variantName)
    | _ => false

end Recast.Generate.Svelte
