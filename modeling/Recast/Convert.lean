import Recast.Analysis.Source
import Recast.Format
import Recast.Generate.Component
import Recast.Plugin.Registry

/-!
# Conversions

From source text to generated components: hooks before reading, reading, hooks on the result, then
for each component generation, hooks on the code, and formatting.
-/

set_option autoImplicit false

namespace Recast

open Recast.Plugin

structure Converter where
  options : Options := {}
  registry : Registry := Registry.builtin
  /-- The plugins to use instead of the registered defaults. -/
  plugins : Option (List Plugin) := none
  extraPlugins : List Plugin := []
  formatter : Option Format.Formatter := none

structure Conversion where
  component : String
  code : String
  filename : String
  warnings : List String := []
  target : Target := .svelte
  success : Bool := true
  deriving DecidableEq, Repr

structure Request where
  source : String
  target : Option String := none
  component : Option String := none
  path : Option String := none

/-- A source made ready for generation. -/
structure Prepared where
  source : ParsedSource
  context : Context
  pipeline : Pipeline

namespace Converter

def resolve (c : Converter) (r : Request) : Except Report Options :=
  c.options.merged { target := r.target, targetComponent := r.component }

def pipelineFor (c : Converter) (o : Options) : Except Report Pipeline :=
  Pipeline.make (c.plugins.getD (c.registry.defaultsFor o.target) ++ c.extraPlugins)

/-- Reads a source and runs all hooks that come before generation. -/
def prepare (c : Converter) (o : Options) (source : String) (path : Option String) :
    Except Report Prepared := do
  let pipeline ← c.pipelineFor o
  let context : Context := { target := o.target, options := o, targetComponent := o.targetComponent }
  let (text, context) := pipeline.runPreParse source context
  let parsed ← Analysis.readSource text { normalizePrimitives := o.normalizePrimitives } path
  let context := { context with warnings := context.warnings ++ parsed.warnings ++ parsed.errors }
  let (parsed, context) := pipeline.runPostParse parsed context
  let (parsed, context) := pipeline.runPreGenerate parsed context
  return ⟨parsed, context, pipeline⟩

def componentContext (p : Prepared) (name : String) : Context :=
  { p.context with targetComponent := some name, declarations := none, usedFallback := false }

/-- Generates one component, runs the hooks on its code, and formats it. -/
def finish (c : Converter) (p : Prepared) (component : Component) : Except Report Conversion := do
  let o := p.context.options
  let g ← Generate.generate component o
  let context := { componentContext p component.name with
    declarations := some g.declarations, usedFallback := g.usedFallback }
  let (code, context) := p.pipeline.runPostGenerate g.assemble context
  let (code, warnings) :=
    if o.emitFormatted then
      Format.run (c.formatter.getD (Format.whitespace {})) code o.target o.formatTimeout
    else (code, [])
  return {
    component := component.name, code, filename := g.filename
    warnings := context.warnings ++ warnings, target := o.target }

/-- The failure of a call for a component that cannot be converted. -/
def notFound (message : String) (path : Option String) (hint : Option String := none) : Report :=
  { kind := .componentNotFound, message, location := { path }, hint }

def convertibleNames (p : ParsedSource) : String :=
  match p.convertible with
  | [] => "none"
  | cs => match Text.join ", " (cs.map (·.name)) with
    | "" => "none"
    | names => names

/-- The component a call is about: the one it names, else the primary one. -/
def choose (p : ParsedSource) (name path : Option String) : Except Report Component :=
  match name.filter (· ≠ "") with
  | some name =>
    match (p.find? name).filter (!·.isReExport) with
    | some c => .ok c
    | none => .error (notFound ("Component '" ++ name ++ "' not found") path
        (some ("Convertible components: " ++ convertibleNames p)))
  | none =>
    match p.primary?.filter (!·.isReExport) with
    | some c => .ok c
    | none => .error (notFound "No convertible component found in source" path)

def convert (c : Converter) (r : Request) : Except Report Conversion := do
  let o ← c.resolve r
  let p ← c.prepare o r.source r.path
  let component ← choose p.source o.targetComponent r.path
  c.finish p component

def failed (p : Prepared) (component : Component) (message : String) : Conversion :=
  let o := p.context.options
  { component := component.name, code := ""
    filename := component.name ++ "." ++ o.target.extension
    warnings := p.context.warnings ++ ["Failed to convert " ++ component.name ++ ": " ++ message]
    target := o.target, success := false }

def convertOne (c : Converter) (p : Prepared) (component : Component) : Conversion :=
  match c.finish p component with
  | .ok result => result
  | .error e => failed p component e.message

/-- Converts every component of a source that has markup of its own. A component that cannot be
generated does not stop the others. -/
def convertAll (c : Converter) (r : Request) : Except Report (List Conversion) := do
  let o ← c.resolve { r with component := none }
  let p ← c.prepare o r.source r.path
  -- Of components with one name the last one counts.
  return (Assoc.ofEntries (p.source.convertible.map fun k => (k.name, c.convertOne p k))).map (·.2)

end Converter

end Recast
