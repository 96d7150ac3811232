import Recast.Analysis.Imports
import Recast.Analysis.Note
import Recast.Component.Variant

/-!
# Variant configurations in a source

Every call of the variant builder becomes a configuration, named after the variable it is assigned
to.
-/

set_option autoImplicit false

namespace Recast.Analysis

open Recast.Tsx

/-- The content of a string literal, or the source text of anything else. -/
def literalText (t : Option Tree) : String :=
  match t with
  | some t => t.stringValue?.getD t.text
  | none => ""

/-- The key-value pairs of an object literal; anything else has none. -/
def objectPairs (t : Option Tree) : List Tree :=
  match t with
  | some t => if t.kind = .objectLiteral then t.parts.filter (·.kind = .pair) else []
  | none => []

def pairKey? (pair : Tree) : Option String := (pair.field? .key).bind Tree.propertyKey?

def findPair? (t : Option Tree) (key : String) : Option Tree :=
  ((objectPairs t).find? fun p => pairKey? p == some key).bind (·.field? .value)

def axisValues (t : Tree) : Assoc String :=
  Assoc.ofEntries ((objectPairs (some t)).filterMap fun p =>
    (pairKey? p).map fun key => (key, literalText (p.field? .value)))

def axesOf (name : String) (t : Option Tree) : Noting (Assoc (Assoc String)) := do
  match t with
  | none => return []
  | some t =>
    if t.kind ≠ .objectLiteral then
      warn ("Variant configuration '" ++ name ++ "': 'variants' is not an object literal")
      return []
    (objectPairs (some t)).foldlM (fun table pair => do
      match (pairKey? pair).filter (· ≠ "") with
      | none => return table
      | some axis =>
        match (pair.field? .value).filter (·.kind = .objectLiteral) with
        | none =>
          warn ("Variant configuration '" ++ name ++ "': axis '" ++ axis
            ++ "' is not an object literal")
          return table
        | some values =>
          -- An axis without values is left out.
          let values := axisValues values
          return if values.isEmpty then table else table.put axis values) []

def defaultsOf (t : Option Tree) : Assoc String :=
  Assoc.ofEntries ((objectPairs t).filterMap fun p =>
    ((pairKey? p).filter (· ≠ "")).map fun key => (key, literalText (p.field? .value)))

def compoundEntry (c : CompoundVariant) (pair : Tree) : CompoundVariant :=
  let value := pair.field? .value
  match (pairKey? pair).filter (· ≠ "") with
  | none => c
  | some key =>
    if key == "class" || key == "className" then { c with classes := literalText value }
    else
      let condition :=
        match value.filter (·.kind = .arrayLiteral) with
        | some list => Condition.isOneOf (list.parts.map fun item => literalText (some item))
        | none => Condition.is (literalText value)
      { c with conditions := c.conditions.put key condition }

/-- The compound variants that have both conditions and classes. -/
def compoundsOf (t : Option Tree) : List CompoundVariant :=
  match t.filter (·.kind = .arrayLiteral) with
  | none => []
  | some list =>
    let objects := list.parts.filter (·.kind = .objectLiteral)
    let compounds := objects.map fun o => (objectPairs (some o)).foldl compoundEntry {}
    compounds.filter fun c => !c.conditions.isEmpty && c.classes ≠ ""

def baseClassesOf (name : String) (base : Tree) : Noting String := do
  match base.stringValue? with
  | some s => return s
  | none =>
    warn ("Variant configuration '" ++ name ++ "': base classes are not a string literal")
    return base.text

/-- The configuration with the given base classes that the options of a call describe. -/
def variantWith (name baseClasses : String) (options : Option Tree) : Noting VariantConfig := do
  let variants ← axesOf name (findPair? options "variants")
  let defaults := defaultsOf (findPair? options "defaultVariants")
  -- A default that names no axis leaves a warning and is left out below.
  for key in defaults.keys do
    if !variants.has key then
      warn ("Variant configuration '" ++ name ++ "': default for unknown variant '" ++ key
        ++ "' ignored")
  return {
    name
    baseClasses
    variants
    defaults := defaults.filter fun entry => variants.has entry.1
    compounds := compoundsOf (findPair? options "compoundVariants") }

def variantOfCall? (call : Tree) (name : String) : Noting (Option VariantConfig) := do
  match ((call.field? .arguments).map Tree.parts).getD [] with
  | [] =>
    warn ("Variant configuration '" ++ name ++ "' has no arguments")
    return none
  | base :: rest =>
    let baseClasses ← baseClassesOf name base
    let options := rest.head?
    if options.any (·.kind ≠ .objectLiteral) then
      warn ("Variant configuration '" ++ name ++ "': options are not an object literal")
    return some (← variantWith name baseClasses (options.filter (·.kind = .objectLiteral)))

/-- The variable that a value below `t` is assigned to, where `above` is the variable for `t`
itself. -/
def declaredBelow (above : Option String) (t : Tree) : Option String :=
  match t.kind with
  | .declarator => some (t.fieldText .name)
  -- Parentheses and type conversions do not matter.
  | .parenthesized | .asExpression => above
  | _ => none

mutual
/-- Every builder call with the variable it is assigned to, in source order. -/
def builderCalls (declared : Option String) : Tree → List (Option String × Tree)
  | .mk kind role text children =>
    let t := Tree.mk kind role text children
    let here := if isCallOf variantBuilderName t then [(declared, t)] else []
    here ++ builderCallsIn (declaredBelow declared t) children
def builderCallsIn (declared : Option String) : List Tree → List (Option String × Tree)
  | [] => []
  | t :: ts => builderCalls declared t ++ builderCallsIn declared ts
end

/-- Every variant configuration of a source by name. -/
def variantConfigsOf (root : Tree) : Noting (Assoc VariantConfig) :=
  (builderCalls none root).foldlM (fun configs entry => do
    -- A call that is not assigned to a variable is named by how many configurations came before.
    let name := (entry.1.filter (· ≠ "")).getD ("variants_" ++ toString configs.length)
    match ← variantOfCall? entry.2 name with
    | some config => return configs.put name config
    | none => return configs) []

/-- The first configuration whose name is followed by an opening parenthesis in a text. -/
def variantNameFor? (source : String) (names : List String) : Option String :=
  names.find? fun name => Text.contains (name ++ "(") source

end Recast.Analysis
