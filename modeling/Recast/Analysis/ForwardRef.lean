import Recast.Analysis.Note
import Recast.Catalog.Elements
import Recast.Component.Basic
import Recast.Tsx.Tree

/-!
# Ref forwarding

Components wrapped in `forwardRef` name the element type they forward to as a type argument and
receive the reference as their second parameter.
-/

set_option autoImplicit false

namespace Recast.Analysis

open Recast.Tsx

def forwardRefNames : List String := ["forwardRef", "React.forwardRef"]

def isFunctionValue (t : Tree) : Bool :=
  t.kind = .arrowFunction || t.kind = .functionExpression

/-- Whether a value is a call of the wrapper, possibly in parentheses. -/
def isForwardRefCall (t : Tree) : Bool :=
  t.unwrap.any fun u => u.kind = .call && forwardRefNames.contains (u.fieldText .callee)

def typeArgumentsOf (call : Tree) : List Tree :=
  ((call.field? .typeArguments).map Tree.parts).getD []

def renderFunction? (call : Tree) : Option Tree :=
  let args := ((call.field? .arguments).map Tree.parts).getD []
  (args.filterMap Tree.unwrap).find? isFunctionValue

def parametersOf (function : Tree) : List Tree :=
  match function.field? .parameters with
  | some ps => ps.parts
  | none => (function.field? .parameter).toList

/-- The pattern a parameter binds, without its type and default. -/
def parameterPattern (p : Tree) : Tree :=
  if p.kind = .parameter then (p.field? .pattern).getD p else p

/-- The element type and the reference parameter of a wrapper call. -/
def forwardRefOf (call : Tree) (component : String) : Noting RefForward := do
  let elementType ←
    match (typeArgumentsOf call).head? with
    | some t => pure (Catalog.normalizeElementType t.text)
    | none => do
      warn (component ++ ": forwardRef has no element type argument, using "
        ++ Catalog.genericElementType)
      pure Catalog.genericElementType
  let params := ((renderFunction? call).map parametersOf).getD []
  let refName := (params[1]?.map parameterPattern).filter (·.kind = .identifier)
  return { elementType, paramName := (refName.map Tree.text).getD "ref" }

def propsTypeArgument? (call : Tree) : Option String :=
  (typeArgumentsOf call)[1]?.map Tree.text

end Recast.Analysis
