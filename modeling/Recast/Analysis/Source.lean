import Recast.Analysis.Props
import Recast.Analysis.Variants
import Recast.Tsx.Parse

/-!
# Reading a source

From source text to components, shared facts and warnings. Only text that is not well formed is
refused; everything else degrades to warnings.
-/

set_option autoImplicit false

namespace Recast.Analysis

open Recast.Tsx

structure ReadOptions where
  normalizePrimitives : Bool := true
  patterns : List StatePattern := StatePattern.defaults

def markupOf (options : ReadOptions) (component : String) (function : Tree) :
    Noting (List Markup.Node) := do
  match returnedMarkup? function with
  | none => return []
  | some markup =>
    convertRoot
      { component, aliases := tagAliases function
        normalizePrimitives := options.normalizePrimitives } markup

def componentOf (root : Tree) (shared : Shared) (options : ReadOptions) (found : Discovered) :
    Noting Component := do
  match found.declared with
  | .reExport target =>
    return { name := found.name, isReExport := true, reExportTarget := some target }
  | .function function => build (some function) none
  | .forwardRef call render => build render (some call)
where
  build (function call : Option Tree) : Noting Component := do
    let variantName := variantNameFor? found.text shared.variantConfigs.keys
    let own := variantName.bind shared.variantConfigs.get?
    let refForward ← call.mapM fun c => forwardRefOf c found.name
    let nodes ←
      match function with
      | some f => markupOf options found.name f
      | none => pure []
    if nodes.isEmpty then
      warn (found.name ++ ": no markup found, output will use a synthesized root element")
    let (props, _) ← propsOf root {
      component := found.name
      function
      propsType := call.bind propsTypeArgument?
      scope := ⟨shared.variantConfigs, own⟩
      namespaces := namespaceSources shared.imports
      patterns := options.patterns }
    return {
      name := found.name
      root := nodes
      props
      variantName
      refForward
      baseClasses := baseClassesIn? found.text
      state := (function.map stateVariables).getD []
      effects := (function.map effectsOf).getD [] }

def componentsOf (root : Tree) (options : ReadOptions) : Noting (Shared × List Component) := do
  let variantConfigs ← variantConfigsOf root
  let imports := importsOf root
  let shared : Shared := {
    variantConfigs, imports, usesClassMerge := usesClassMerge root imports }
  let components ← (discover root).mapM (componentOf root shared options)
  return (shared, components)

/-- The first component with markup of its own, else the first component. -/
def primaryOf (components : List Component) : Primary :=
  match components.findIdx? (!·.isReExport) with
  | some i => .listed i
  | none => if components.isEmpty then .none else .listed 0

def closingWarnings (shared : Shared) (components : List Component) : List String :=
  let primitives := (shared.imports.filter (·.category = .primitive)).map (·.source)
  (if components.isEmpty then ["No components found in source"] else []) ++
    (if primitives.isEmpty then []
    else ["Component uses wrapped primitives (" ++ Text.join ", " primitives
      ++ "); they are mapped to native elements in the output"])

def analyze (root : Tree) (options : ReadOptions) : ParsedSource :=
  let ((shared, components), warnings) := (componentsOf root options).run []
  { primary := primaryOf components
    components
    warnings := warnings ++ closingWarnings shared components
    errors := components.flatMap (·.problems (shared.variantConfigs.map (·.2)))
    shared }

def malformed (path : Option String) : Report :=
  { kind := .sourceSyntax
    message := "Unexpected syntax in component source"
    location := { path }
    hint := some "The source must be valid TSX/JSX." }

/-- Reads a source. A blank source has no components. -/
def readSource (text : String) (options : ReadOptions := {}) (path : Option String := none) :
    Except Report ParsedSource :=
  if (Text.stripChars text.toList).isEmpty then .ok { warnings := ["Source is empty"] }
  else match parse? text with
    | some root => .ok (analyze root options)
    | none => .error (malformed path)

end Recast.Analysis
