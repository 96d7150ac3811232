import Recast.Component.Variant
import Recast.Markup.Node

/-!
# Components

What is known about a component: its markup, its props, the state it keeps, and the facts about its
source file that a generator needs.
-/

set_option autoImplicit false

namespace Recast

/-- The labels a boolean state shows for true and for false. -/
structure StateLabels where
  whenTrue : String
  whenFalse : String
  deriving DecidableEq, Repr

structure Property where
  name : String
  type : String := "unknown"
  optional : Bool := true
  defaultValue : Option String := none
  isVariant : Bool := false
  allowedValues : Option (List String) := none
  isState : Bool := false
  stateLabels : Option StateLabels := none
  description : Option String := none
  /-- The variable the prop is bound to, when it is not called like the prop. -/
  localName : Option String := none
  deriving DecidableEq, Repr

/-- Refuses a state prop without labels. -/
def Property.check (p : Property) : Except Report Property :=
  if p.isState && p.stateLabels.isNone then
    .error {
      kind := .invalidNode
      message := "State prop '" ++ p.name ++ "' must declare its data-state values" }
  else .ok p

/-- A pair of props that together drive a boolean state, and the attributes that show it. -/
structure StatePattern where
  valueProp : String
  changeProp : String
  labels : StateLabels
  ariaAttribute : String
  /-- Applied to buttons only. -/
  role : Option String := none
  deriving DecidableEq, Repr

namespace StatePattern

def isMatch (p : StatePattern) (props : List Property) : Bool :=
  props.any (·.name == p.valueProp) && props.any (·.name == p.changeProp)

def emitEvent (p : StatePattern) : String := "update:" ++ p.valueProp

/-- The patterns that are recognized unless others are asked for. -/
def defaults : List StatePattern := [
  { valueProp := "checked", changeProp := "onCheckedChange"
    labels := ⟨"checked", "unchecked"⟩
    ariaAttribute := "aria-checked", role := some "switch" },
  { valueProp := "pressed", changeProp := "onPressedChange"
    labels := ⟨"on", "off"⟩, ariaAttribute := "aria-pressed" }]

end StatePattern

inductive ImportCategory where
  | react
  | primitive
  | utility
  | style
  | icon
  | other
  deriving DecidableEq, Repr

structure Import where
  source : String
  named : List String := []
  default : Option String := none
  namespaceName : Option String := none
  isTypeOnly : Bool := false
  category : ImportCategory := .other
  deriving DecidableEq, Repr

/-- Whether the statement binds a name in any of the three ways. -/
def Import.binds (i : Import) (name : String) : Bool :=
  i.named.contains name || i.default == some name || i.namespaceName == some name

/-- The element type a component forwards its reference to, and the parameter that receives it. -/
structure RefForward where
  elementType : String := "HTMLElement"
  paramName : String := "ref"
  deriving DecidableEq, Repr

/-- The facts about a component that generators read. -/
structure Metadata where
  variant : Option VariantConfig := none
  refForward : Option RefForward := none
  imports : List Import := []
  usesClassMerge : Bool := false
  baseClasses : Option String := none
  stateProps : List Property := []
  statePattern : Option StatePattern := none
  deriving DecidableEq, Repr

/-- The names under which plugins declare which facts they read and write. -/
def Metadata.fieldNames : List String := [
  "base_classes", "imports", "ref_forward", "state_pattern", "state_props", "uses_class_merge",
  "variant"]

structure Component where
  name : String
  root : List Markup.Node := []
  props : List Property := []
  /-- A name for a primitive, without markup of its own. -/
  isReExport : Bool := false
  reExportTarget : Option String := none
  variantName : Option String := none
  refForward : Option RefForward := none
  baseClasses : Option String := none
  state : Assoc String := []
  effects : List String := []
  metadata : Option Metadata := none
  deriving Repr

namespace Component

def findProp? (c : Component) (name : String) : Option Property :=
  c.props.find? (·.name == name)

def hasProp (c : Component) (name : String) : Bool := c.props.any (·.name == name)

/-- A complaint for each variant prop that no configuration declares. -/
def problems (c : Component) (configs : List VariantConfig) : List String :=
  (c.props.filter fun p => p.isVariant && !configs.any (·.hasAxis p.name)).map fun p =>
    "Prop '" ++ p.name ++ "' of " ++ c.name
      ++ " is marked as a variant but no variant configuration declares it"

end Component

structure Shared where
  variantConfigs : Assoc VariantConfig := []
  imports : List Import := []
  usesClassMerge : Bool := false
  deriving DecidableEq, Repr

/-- Joins what is known about one component with what its source shares. -/
def Metadata.ofComponent (c : Component) (shared : Option Shared := none)
    (patterns : List StatePattern := StatePattern.defaults) : Metadata :=
  let stateProps := c.props.filter (·.isState)
  { variant := do
      let s ← shared
      let name ← c.variantName.filter (· ≠ "")
      s.variantConfigs.get? name
    refForward := c.refForward
    imports := (shared.map (·.imports)).getD []
    usesClassMerge := (shared.map (·.usesClassMerge)).getD false
    baseClasses := c.baseClasses
    stateProps
    statePattern := patterns.find? fun p =>
      stateProps.any (·.name == p.valueProp) && p.isMatch c.props }

/-- Which component a conversion takes when none is named. A component that was taken off the list
may still be the one. -/
inductive Primary where
  | none
  | listed (index : Nat)
  | apart (component : Component)
  deriving Repr

structure ParsedSource where
  primary : Primary := .none
  components : List Component := []
  warnings : List String := []
  errors : List String := []
  shared : Shared := {}
  deriving Repr

namespace ParsedSource

def primary? (p : ParsedSource) : Option Component :=
  match p.primary with
  | .none => none
  | .listed i => p.components[i]?
  | .apart c => some c

def find? (p : ParsedSource) (name : String) : Option Component :=
  p.components.find? (·.name == name)

/-- The components that have markup of their own. -/
def convertible (p : ParsedSource) : List Component := p.components.filter (!·.isReExport)

end ParsedSource

end Recast
