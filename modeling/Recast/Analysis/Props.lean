import Recast.Analysis.Discovery
import Recast.Text.Word

/-!
# Props of a component

Props come from the first of three places that has any: a type declared for the component by name,
the parameter the component takes apart together with the props of the primitive it wraps, or any
props type in the source. State props are marked afterwards.
-/

set_option autoImplicit false

namespace Recast.Analysis

open Recast.Tsx Recast.Text

/-! ## Variant props -/

/-- The prop for an axis that the source declares only through its configuration. -/
def variantProp (config : VariantConfig) (axis : String) : Property :=
  { name := axis
    type := config.unionType axis
    defaultValue := config.defaults.get? axis
    isVariant := true
    allowedValues := some (config.allowedValues axis) }

def markVariant (config : Option VariantConfig) (p : Property) : Property :=
  match config.filter (·.hasAxis p.name) with
  | none => p
  | some c =>
    { p with
      isVariant := true
      allowedValues := some (c.allowedValues p.name)
      type := if p.type == "unknown" then c.unionType p.name else p.type
      defaultValue := p.defaultValue <|> c.defaults.get? p.name }

/-- Recognizes `Name<typeof` and returns what follows. -/
def afterTypeof? (name : String) (cs : List Char) : Option (List Char) := do
  let rest ← after? name.toList cs
  let rest ← after? ['<'] (rest.dropWhile isBlank)
  let rest ← after? "typeof".toList (rest.dropWhile isBlank)
  guard (rest.head?.any isBlank)
  return rest.dropWhile isBlank

/-- Recognizes the variant props of a configuration and returns its name. -/
def variantPropsOf? (cs : List Char) : Option String := do
  let rest ← afterTypeof? "VariantProps" cs
  let name := rest.takeWhile isWord
  guard (name ≠ [] && Catalog.closesRef (rest.dropWhile isWord))
  return String.ofList name

/-- Recognizes the props of a primitive part and returns its namespace and the part. -/
def primitivePropsOf? (cs : List Char) : Option (String × String) := do
  let rest ← afterTypeof? "ComponentPropsWithoutRef" cs
  let space := rest.takeWhile isWord
  let rest ← after? ['.'] (rest.dropWhile isWord)
  let part := rest.takeWhile isWord
  guard (space ≠ [] && part ≠ [] && Catalog.closesRef (rest.dropWhile isWord))
  return (String.ofList space, String.ofList part)

/-- What is known about the variants of a source while one component is analyzed. -/
structure VariantScope where
  configs : Assoc VariantConfig
  /-- The configuration the component itself calls. -/
  own : Option VariantConfig

/-- Adds the axes of the configuration that a type refers to, unless they are there already. -/
def addVariantAxes (scope : VariantScope) (clause : String) (props : List Property) :
    List Property :=
  match firstMatch? variantPropsOf? clause.toList with
  | none => props
  | some name =>
    match scope.configs.get? name <|> scope.own with
    | none => props
    | some config =>
      let missing := config.axes.filter fun axis => !props.any (·.name == axis)
      props ++ missing.map (variantProp config)

/-! ## Declared types -/

/-- The text of a documentation comment: its lines without stars, those with tags left out. -/
def docText? (comment : String) : Option String :=
  if !startsWith "/**" comment then none
  else
    let body := comment.toList.take (comment.toList.length - 2) |>.drop 3
    let clean (l : List Char) : List Char := stripChars ((stripChars l).dropWhile (· == '*'))
    let kept := ((linesFrom body).map clean).filter fun l => l ≠ [] && l.head? != some '@'
    let text := joinChars [' '] kept
    if text = [] then none else some (String.ofList text)

/-- The prop a property signature declares, with the comment in front of it. -/
def signatureProp? (scope : VariantScope) (before : Option Tree) (t : Tree) : Option Property := do
  let name ← ((t.field? .name).bind Tree.propertyKey?).filter (· ≠ "")
  let declared := (t.field? .type).map fun a =>
    strip (String.ofList (a.text.toList.dropWhile (· == ':')))
  return markVariant scope.own {
    name
    type := (declared.filter (· ≠ "")).getD "unknown"
    optional := t.children.any fun c => c.kind = .token && c.text == "?"
    description := (before.filter (·.kind = .comment)).bind fun c => docText? c.text }

/-- The props of a list of members, each seen with the node in front of it. -/
def memberProps (scope : VariantScope) (before : Option Tree) : List Tree → List Property
  | [] => []
  | t :: ts =>
    let here := if t.kind = .propertySignature then (signatureProp? scope before t).toList else []
    let before := if t.kind = .token then before else some t
    here ++ memberProps scope before ts

def objectTypeProps (scope : VariantScope) (t : Tree) : List Property :=
  memberProps scope none t.children

/-- The props of an interface: its members, then the axes of the configurations it extends. -/
def interfaceProps (scope : VariantScope) (t : Tree) : List Property :=
  let own := ((t.field? .body).map (objectTypeProps scope)).getD []
  let clauses := t.parts.filter (·.kind = .extendsClause)
  clauses.foldl (fun props clause => addVariantAxes scope clause.text props) own

/-- The operands of an intersection, or the type itself. -/
def intersectionParts (t : Tree) : List Tree :=
  if t.kind = .intersectionType then t.parts else [t]

/-- The props of a type alias: members of its object types and axes of its variant props. -/
def aliasProps (scope : VariantScope) (t : Tree) : List Property :=
  match t.field? .value with
  | none => []
  | some value =>
    (intersectionParts value).foldl (fun props part =>
      if part.kind = .objectType then props ++ objectTypeProps scope part
      else if contains "VariantProps" part.text then addVariantAxes scope part.text props
      else props) []

def typeDeclarations (root : Tree) : List Tree :=
  ((topLevel root).map fun t =>
    if t.kind = .exportStatement then (t.field? .declaration).getD t else t).filter fun t =>
      t.kind = .interface || t.kind = .typeAlias

def declarationProps (scope : VariantScope) (t : Tree) : List Property :=
  if t.kind = .interface then interfaceProps scope t else aliasProps scope t

/-! ## Destructured parameters -/

/-- The variable an entry of a pattern binds, when it is called differently from the prop. -/
def entryLocal? (entry : Tree) : Option String := do
  let value ← entry.field? .value
  let bound ← if value.kind = .defaultedPattern then value.field? .left else some value
  guard (bound.kind = .identifier)
  guard (some bound.text ≠ (entry.field? .key).bind Tree.propertyKey?)
  return bound.text

def entryDefault? (entry : Tree) : Option String := do
  let value ← (entry.field? .value).filter (·.kind = .defaultedPattern)
  ((value.field? .right).map Tree.text).filter (· ≠ "")

def renamedEntries (pattern : Tree) : Assoc String :=
  if pattern.kind ≠ .objectPattern then []
  else
    let pairs := pattern.parts.filter (·.kind = .pairPattern)
    Assoc.ofEntries (pairs.filterMap fun entry => do
      let bound ← (entryLocal? entry).filter (· ≠ "")
      let key ← (entry.field? .key).bind Tree.propertyKey?
      return (key, bound))

def bareProp? (entry : Tree) : Option Property :=
  match entry.kind with
  | .shorthandPattern => some { name := entry.text }
  | .defaultedShorthand => some {
      name := entry.fieldText .left
      defaultValue := some (entry.fieldText .right) |>.filter (· ≠ "") }
  | .pairPattern => do
    let name ← (entry.field? .key).bind Tree.propertyKey?
    return { name, defaultValue := entryDefault? entry, localName := entryLocal? entry }
  | _ => none

def entryProp? (scope : VariantScope) (entry : Tree) : Option Property := do
  let p ← bareProp? entry
  guard (p.name ≠ "" && p.name ≠ "children")
  let isClass := p.name == "className" || p.name == "class"
  return markVariant scope.own (if isClass then { p with type := "string" } else p)

def patternProps (scope : VariantScope) (pattern : Tree) : List Property :=
  if pattern.kind = .objectPattern then pattern.parts.filterMap (entryProp? scope) else []

/-- The members of the type written next to a parameter, by name. -/
def inlineMembers (scope : VariantScope) (param : Tree) : Assoc Property :=
  match (if param.kind = .parameter then param.field? .type else none) with
  | none => []
  | some annotation =>
    let types := annotation.parts.filterMap Tree.unwrap
    let objects := (types.flatMap intersectionParts).filter (·.kind = .objectType)
    Assoc.ofEntries ((objects.flatMap (objectTypeProps scope)).map fun p => (p.name, p))

def applyInlineTypes (scope : VariantScope) (param : Tree) (props : List Property) :
    List Property :=
  let members := inlineMembers scope param
  props.map fun p =>
    match members.get? p.name with
    | none => p
    | some m =>
      { p with
        type := if m.type == "unknown" then p.type else m.type
        optional := m.optional || p.defaultValue.isSome
        description := p.description.filter (· ≠ "") <|> m.description }

/-! ## Wrapped primitives -/

def dashed (name : String) : String :=
  let marked :=
    match name.toList with
    | [] => []
    | c :: cs => c :: cs.flatMap fun d => if 'A' ≤ d && d ≤ 'Z' then ['-', d] else [d]
  lower (String.ofList marked)

def withoutPrimitiveEnding (name : String) : String :=
  let cs := name.toList
  let (body, last) := if cs.getLast? == some '\n' then (cs.dropLast, ['\n']) else (cs, [])
  let cut (ending : String) : Option (List Char) :=
    (after? ending.toList.reverse body.reverse).map List.reverse
  match cut "Primitives" <|> cut "Primitive" with
  | some short => String.ofList (short ++ last)
  | none => name

/-- The package imported under a name, else the imported package that is called like it. -/
def primitivePackage? (name : String) (namespaces : Assoc String) : Option String :=
  match namespaces.get? name with
  | some source => some source
  | none =>
    let candidate := Catalog.primitivePackageStart ++ "react-" ++ dashed (withoutPrimitiveEnding name)
    if namespaces.any (·.2 == candidate) then some candidate else none

/-- Adds the props of the primitive part that a props type refers to. -/
def addPrimitiveProps (component : String) (propsType : Option String) (namespaces : Assoc String)
    (props : List Property) : Noting (List Property) := do
  match propsType.bind fun t => firstMatch? primitivePropsOf? t.toList with
  | none => return props
  | some (space, part) =>
    let table := do
      let package ← (primitivePackage? space namespaces).filter (· ≠ "")
      Catalog.primitivePropsFor? package part
    match table with
    | none =>
      warn (component ++ ": no prop table for " ++ space ++ "." ++ part)
      return props
    | some entries =>
      let missing := entries.filter fun e => e.name ≠ "asChild" && !props.any (·.name == e.name)
      return props ++ missing.map fun e =>
        { name := e.name, type := e.type, optional := e.optional, defaultValue := e.defaultValue }

/-! ## State props -/

def markState (pattern : StatePattern) (p : Property) : Property :=
  if p.name == pattern.valueProp then
    { p with
      isState := true
      stateLabels := some pattern.labels
      type := if p.type == "unknown" then "boolean" else p.type }
  else if p.name == pattern.changeProp && p.type == "unknown" then
    { p with type := "(" ++ pattern.valueProp ++ ": boolean) => void" }
  else p

/-- Marks the props of the first pattern that matches. -/
def detectState (patterns : List StatePattern) (props : List Property) :
    List Property × Option StatePattern :=
  match patterns.find? (·.isMatch props) with
  | none => (props, none)
  | some pattern => (props.map (markState pattern), some pattern)

/-! ## All props -/

structure PropsRequest where
  component : String
  function : Option Tree
  propsType : Option String
  scope : VariantScope
  namespaces : Assoc String
  patterns : List StatePattern

/-- The props of the parameter that a component takes apart, and of the primitive it wraps. -/
def parameterProps (req : PropsRequest) (params : List Tree) : Noting (List Property) := do
  let own :=
    match params.head? with
    | none => []
    | some p => applyInlineTypes req.scope p (patternProps req.scope (parameterPattern p))
  addPrimitiveProps req.component req.propsType req.namespaces own

/-- The props of a component itself: of the type declared for it, else of its parameter. -/
def ownProps (root : Tree) (req : PropsRequest) : Noting (List Property) := do
  let declared := (typeDeclarations root).find? fun d => d.fieldText .name == req.component ++ "Props"
  let props := (declared.map (declarationProps req.scope)).getD []
  match req.function with
  | some f => if props.isEmpty then parameterProps req (parametersOf f) else return props
  | none => return props

/-- The props of the first props type that has any. -/
def anyProps (root : Tree) (scope : VariantScope) : List Property :=
  let types := (typeDeclarations root).filter fun d => endsWith "Props" (d.fieldText .name)
  ((types.map (declarationProps scope)).find? (!·.isEmpty)).getD []

/-- The props of a component before local names and state are known. -/
def collectProps (root : Tree) (req : PropsRequest) : Noting (List Property) := do
  let props ← ownProps root req
  return if props.isEmpty then anyProps root req.scope else props

def propsOf (root : Tree) (req : PropsRequest) :
    Noting (List Property × Option StatePattern) := do
  let props ← collectProps root req
  let params := (req.function.map parametersOf).getD []
  let renamed := (params.head?.map fun p => renamedEntries (parameterPattern p)).getD []
  let props := props.map fun p => { p with localName := p.localName <|> renamed.get? p.name }
  if props.isEmpty then warn (req.component ++ ": no props found")
  return detectState req.patterns props

end Recast.Analysis
