import Recast.Generate.Generated
import Recast.Generate.Import
import Recast.Generate.Variant
import Recast.Generate.Svelte.Markup
import Recast.Generate.Svelte.Script

/-!
# Svelte components

The declarations of a Svelte component and the component itself.
-/

set_option autoImplicit false

namespace Recast.Generate.Svelte

open Recast.Text

def quote : String := "\""

def importNames (names source : String) : String :=
  "import \x7b " ++ names ++ " \x7d from \"" ++ source ++ "\";"

def imports (o : Options) (m : Metadata) (elementType : String) (callsMerge : Bool) : List String :=
  (if callsMerge then [importNames "cn" o.classMergePath.display] else [])
    ++ (if m.variant.isSome then
        [importNames (if o.typescript then "cva, type VariantProps" else "cva")
          "class-variance-authority"]
      else [])
    ++ (if o.typescript then
        ["import type \x7b " ++ Catalog.svelteAttributesImport elementType
          ++ " \x7d from \"svelte/elements\";"]
      else [])
    ++ (carriedImports m.imports .svelte).map (renderImport · quote)

def propTypeOf (c : Component) (m : Metadata) (planned : List Property) (elementType : String) :
    Declaration :=
  let parents := [Catalog.svelteAttributesType elementType]
    ++ (m.variant.map fun config => "VariantProps<typeof " ++ config.name ++ ">").toList
  -- Variant axes are typed by the variant configuration.
  let typed := planned.filter fun p => !m.variant.any (·.hasAxis p.name)
  let members :=
    (if declaresClass c m then [indent ++ "class?: string;"] else [])
    ++ typed.map (fun p =>
      indent ++ p.name ++ (if p.optional then "?" else "") ++ ": " ++ p.type ++ ";")
    ++ ((forwardedRef? c m).map fun r => indent ++ "ref?: " ++ r.elementType ++ " | null;").toList
  { kind := .propType, name := "Props", code := join "\n" members, value := join ", " parents }

def bindingOf (m : Metadata) (p : Property) : PropBinding :=
  let default := formatDefault (propDefault m p) quote
  -- Callers can bind to the value of a state.
  if m.statePattern.any (·.valueProp == p.name) then
    { name := p.name, «local» := p.localName, default := some (default.getD "false"), type := p.type
      bindable := true }
  else { name := p.name, «local» := p.localName, default, type := p.type }

/-- The bindings of all props: the class, the declared props, the reference, the children, and the
rest. -/
def bindings (c : Component) (m : Metadata) (planned : List Property) : List PropBinding :=
  (if declaresClass c m then
    [{ name := "class", «local» := some (localName c "className"), default := some "undefined"
       type := "string" }]
  else [])
  ++ planned.map (bindingOf m)
  ++ ((forwardedRef? c m).map fun r =>
    PropBinding.mk Markup.refKey (some r.paramName) (some "null") r.elementType true false).toList
  ++ [{ name := "children" }, { name := "restProps", rest := true }]

/-- The function that changes the state and reports it. -/
def toggle (c : Component) (p : StatePattern) : String :=
  let value := localName c p.valueProp
  join "\n" (
    ["function " ++ toggleName ++ "() \x7b"]
    ++ (if c.hasProp "disabled" then [indent ++ "if (" ++ localName c "disabled" ++ ") return;"]
      else [])
    ++ [indent ++ value ++ " = !" ++ value ++ ";",
      indent ++ localName c p.changeProp ++ "?.(" ++ value ++ ");", "\x7d"])

def stateLabel (c : Component) (p : StatePattern) : String :=
  localName c p.valueProp ++ " ? \"" ++ p.labels.whenTrue ++ "\" : \"" ++ p.labels.whenFalse ++ "\""

def declarations (c : Component) (props : List Property) (m : Metadata) (o : Options)
    (callsMerge : Bool) : List Declaration :=
  let elementType := rootElementType c m
  let planned := plannedProps props m
  let pattern := m.statePattern.toList
  sortDeclarations (
    (imports o m elementType callsMerge).map (fun code => { kind := .importing, code })
    ++ m.variant.toList.map (fun config =>
      { kind := .variant, name := config.name, code := variantDefinition config quote })
    ++ (if o.typescript then [propTypeOf c m planned elementType] else [])
    ++ [{ kind := .propBinding, name := "props", bindings := bindings c m planned }]
    ++ pattern.map (fun p => { kind := .derived, name := stateName, value := stateLabel c p })
    ++ c.state.map (fun entry =>
      { kind := .state, name := entry.1, value := ClassExpr.stripPropsAccess entry.2 })
    ++ c.effects.map (fun body => { kind := .effect, value := ClassExpr.stripPropsAccess body })
    ++ (pattern.filter (·.isMatch c.props)).map (fun p =>
      { kind := .handler, name := toggleName, code := toggle c p }))

def generate (c : Component) (o : Options) : Except Report Generated := do
  let m := metadataOf c
  let setting : Setting := ⟨c, m, o.svelte.runes⟩
  let nodes := markupOf c m
  let markupBlock ← markup setting nodes
  let declarations := declarations c c.props m o (callsMerge setting nodes)
  return {
    name := c.name, target := .svelte, declarations
    declarationBlock := script declarations o.svelte.runes o.typescript
    markupBlock, filename := outputFilename c o, usedFallback := c.root.isEmpty }

end Recast.Generate.Svelte
