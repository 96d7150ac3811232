import Recast.Catalog.Primitives
import Recast.Generate.Props

/-!
# Attribute plans

Which attributes an element gains, for any target: the root of a stateful component gains the
attributes that show and change its state, and other elements gain the state if their classes select
on it. Each target puts what an element gains between the attributes that it takes from the source.
-/

set_option autoImplicit false

namespace Recast.Generate

open Recast.Markup

/-- The start of a class that selects on the state. -/
def stateSelector : String := "data-[state="

def stateAttribute : String := "data-state"

/-- The variable that holds the state's label. -/
def stateName : String := "dataState"

def toggleName : String := "toggle"

inductive GainedValue where
  | static (text : String)
  | variable (name : String)
  /-- The value of a prop, which targets refer to in their own way. -/
  | prop (name : String)
  | event (handler : String)
  deriving DecidableEq, Repr

/-- An attribute that an element gains. -/
structure Gained where
  name : String
  value : GainedValue
  deriving DecidableEq, Repr

def nativeTag (h : Head) : String :=
  if h.isWrappedPrimitive then ((Catalog.nativeTag? h.tag).filter (· ≠ "")).getD h.tag else h.tag

/-- What the root of a stateful component gains, in order, before those it has are left out. -/
def rootCandidates (c : Component) (p : StatePattern) (h : Head) : List Gained :=
  (if nativeTag h = "button" then
    [⟨"type", .static "button"⟩]
      ++ ((p.role.filter (· ≠ "")).map fun r => Gained.mk "role" (.static r)).toList
  else [])
  ++ [⟨p.ariaAttribute, .prop p.valueProp⟩, ⟨stateAttribute, .variable stateName⟩]
  ++ (if c.hasProp "disabled" then [⟨"disabled", .prop "disabled"⟩] else [])
  ++ (if p.isMatch c.props then [⟨"onClick", .event toggleName⟩] else [])

/-- Adds an attribute unless the element or the plan has it. -/
def addMissing (h : Head) (plan : List Gained) (g : Gained) : List Gained :=
  if h.has g.name || plan.any (·.name == g.name) then plan else plan ++ [g]

def rootGains (c : Component) (m : Metadata) (h : Head) : List Gained :=
  match m.statePattern with
  | none => []
  | some p => (rootCandidates c p h).foldl (addMissing h) []

def childGains (m : Metadata) (h : Head) : List Gained :=
  if m.statePattern.isSome && Text.contains stateSelector h.classSource && !h.has stateAttribute then
    [⟨stateAttribute, .variable stateName⟩]
  else []

def gains (c : Component) (m : Metadata) (h : Head) (isRoot : Bool) : List Gained :=
  if isRoot then rootGains c m h else childGains m h

/-- An attribute before it is spelled. -/
inductive Attribute where
  | classExpression (code : String)
  | classText (text : String)
  | static (name value : String)
  | expression (name code : String)
  | gained (gain : Gained)
  | ref (code : String)
  | event (name code : String)
  | spread
  deriving DecidableEq, Repr

/-- Whether an element without content shows the content of callers. -/
def needsPlaceholder (h : Head) (children : List Node) : Bool :=
  !h.isVoid && !slotlessTags.contains h.tag && children.isEmpty && h.hasSpread

def closesItself (h : Head) (children : List Node) : Bool :=
  h.isVoid || (slotlessTags.contains h.tag && children.isEmpty)

end Recast.Generate
