import Recast.Catalog.Elements
import Recast.ClassExpr.Basic
import Recast.Component.Basic
import Recast.Generate.Name

/-!
# Planned props

What a generated component declares about its props, for any target.
-/

set_option autoImplicit false

namespace Recast.Generate

open Recast.Markup

def classPropNames : List String := ["className", "class"]

/-- Props with a meaning of their own in the source framework. -/
def specialPropNames : List String := ["children", "ref", "asChild"]

/-- The facts known about a component, or what the component alone tells if none were gathered. -/
def metadataOf (c : Component) : Metadata := c.metadata.getD (Metadata.ofComponent c)

def localName (c : Component) (name : String) : String :=
  (((c.findProp? name).bind (·.localName)).filter (· ≠ "")).getD name

/-- Whether callers can pass classes. -/
def declaresClass (c : Component) (m : Metadata) : Bool :=
  classPropNames.any c.hasProp || (m.baseClasses.filter (· ≠ "")).isSome || m.variant.isSome

/-- The default a prop declares, else the one its variant axis declares. -/
def propDefault (m : Metadata) (p : Property) : Option String :=
  p.defaultValue <|> do
    let value ← (← m.variant).defaults.get? p.name
    return "\"" ++ value ++ "\""

def axisProp (config : VariantConfig) (axis : String) : Property :=
  { name := axis, type := config.unionType axis, isVariant := true
    allowedValues := some (config.allowedValues axis) }

/-- The props that are declared one by one, in source order, then the variant axes the source did
not mention. -/
def plannedProps (props : List Property) (m : Metadata) : List Property :=
  let planned := props.filter fun p =>
    !classPropNames.contains p.name && !specialPropNames.contains p.name
  match m.variant with
  | none => planned
  | some config =>
    planned ++ (config.axes.filter fun axis => !planned.any (·.name == axis)).map (axisProp config)

def rootElementType (c : Component) (m : Metadata) : String :=
  match m.refForward with
  | some r => r.elementType
  | none =>
    match findRoot c.root with
    | .ok (some (head, _)) => (Catalog.tagElementType? head.tag).getD Catalog.genericElementType
    | _ => Catalog.genericElementType

/-- The reference a component forwards, unless it takes it as a prop. -/
def forwardedRef? (c : Component) (m : Metadata) : Option RefForward :=
  if c.hasProp refKey then none else m.refForward

/-- The root of a component whose markup is not known: an element of the forwarded type with the
class, the reference and all other attributes. -/
def fallbackRoot (c : Component) (m : Metadata) : Node :=
  let classBinding :=
    if declaresClass c m then [(classKey, Binding.mk (ClassExpr.fallback m) .expression)] else []
  let ref := m.refForward.toList.map fun r => (refKey, Binding.mk r.paramName .expression)
  .element {
    tag := Catalog.tagForElementType (m.refForward.map (·.elementType))
    bindings := classBinding ++ ref ++ [(spreadKey, ⟨"props", .spread⟩)] } []

/-- The markup of a component, or its fallback root if it has none. -/
def markupOf (c : Component) (m : Metadata) : List Node :=
  if c.root.isEmpty then [fallbackRoot c m] else c.root

end Recast.Generate
