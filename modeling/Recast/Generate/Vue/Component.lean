import Recast.Generate.Generated
import Recast.Generate.Import
import Recast.Generate.Variant
import Recast.Generate.Vue.Markup

/-!
# Vue components

The declarations of a Vue component and the component itself.
-/

set_option autoImplicit false

namespace Recast.Generate.Vue

open Recast.Text

def quote : String := "'"

/-- Constructors that check the type of a prop at run time. -/
def runtimeTypes : Assoc String := [
  ("string", "String"), ("number", "Number"), ("boolean", "Boolean"), ("object", "Object"),
  ("array", "Array"), ("function", "Function")]

/-- A part of a union that is a quoted text, or nothing. -/
def isTextPart (part : List Char) : Bool :=
  (stripChars part).head?.all fun c => c == '\'' || c == '"'

/-- The constructor for a type, or none in words. -/
def runtimeType (type : String) : String :=
  let text := strip type
  match runtimeTypes.get? text with
  | some name => name
  | none =>
    if endsWith "[]" text || startsWith "Array<" text then "Array"
    else if contains "=>" text then "Function"
    else if text ≠ "" ∧ (splitChar '|' text.toList).all isTextPart then "String"
    else "null"

def importNames (names source : String) : String :=
  "import \x7b " ++ names ++ " \x7d from '" ++ source ++ "';"

/-- The helpers of the framework that a component needs, in alphabetical order. -/
def helpers (c : Component) (m : Metadata) : List String :=
  (if m.statePattern.isSome then ["computed"] else [])
    ++ (if c.effects.isEmpty then [] else ["onMounted"])
    ++ (if (forwardedRef? c m).isSome || !c.state.isEmpty then ["ref"] else [])

def imports (c : Component) (o : Options) (m : Metadata) (callsMerge : Bool) : List String :=
  (match helpers c m with
    | [] => []
    | names => [importNames (join ", " names) "vue"])
  ++ (if callsMerge || (m.baseClasses.filter (· ≠ "")).isSome then
      [importNames "cn" o.classMergePath.display]
    else [])
  ++ (if m.variant.isSome then [importNames "cva" "class-variance-authority"] else [])
  ++ (carriedImports m.imports .vue).map (renderImport · quote)

/-- The type of a prop with single quotes; a variant axis has the union of its values. -/
def propTypeText (m : Metadata) (p : Property) : String :=
  match m.variant.filter (·.hasAxis p.name) with
  | some config => config.unionType p.name quote
  | none => replace "\"" "'" p.type

def propTypeOf (m : Metadata) (planned : List Property) (hasClass : Bool) : Declaration :=
  let members :=
    (if hasClass then [indent ++ "class?: string;"] else [])
    ++ planned.map fun p =>
      indent ++ p.name ++ (if p.optional then "?" else "") ++ ": " ++ propTypeText m p ++ ";"
  { kind := .propType, name := "Props"
    code := if members.isEmpty then "interface Props \x7b\x7d"
      else "interface Props \x7b\n" ++ join "\n" members ++ "\n\x7d" }

def bindings (m : Metadata) (planned : List Property) (hasClass : Bool) : List PropBinding :=
  (if hasClass then [{ name := "class", type := "string" }] else [])
    ++ planned.map fun p =>
      { name := p.name, default := formatDefault (propDefault m p) quote, type := p.type }

/-- The props by their type, with defaults where there are any. -/
def typedProps (bindings : List PropBinding) : String :=
  let entries := bindings.filterMap fun b =>
    b.default.map fun value => indent ++ b.name ++ ": " ++ value ++ ","
  if entries.isEmpty then "const props = defineProps<Props>();"
  else "const props = withDefaults(defineProps<Props>(), \x7b\n" ++ join "\n" entries ++ "\n\x7d);"

/-- The props by constructors. -/
def untypedProps (bindings : List PropBinding) : String :=
  let entries := bindings.map fun b =>
    indent ++ b.name ++ ": \x7b type: " ++ runtimeType b.type
      ++ (b.default.map (", default: " ++ ·)).getD "" ++ " \x7d,"
  if entries.isEmpty then "const props = defineProps(\x7b\x7d);"
  else "const props = defineProps(\x7b\n" ++ join "\n" entries ++ "\n\x7d);"

def propBindingOf (bindings : List PropBinding) (typescript : Bool) : Declaration :=
  { kind := .propBinding, name := "props", bindings
    code := if typescript then typedProps bindings else untypedProps bindings }

def lastProp? (props : List Property) (name : String) : Option Property :=
  props.reverse.find? (·.name == name)

/-- The type of the value that an event reports. -/
def eventType (props : List Property) (subject : String) : String :=
  if subject = "modelValue" then "string"
  else match lastProp? props subject with
    | some p => if p.type = "unknown" then "boolean" else replace "\"" "'" p.type
    | none => "boolean"

/-- The events that stand for change handlers. -/
def emitsOf (props : List Property) (subjects : List String) (typescript : Bool) : Declaration :=
  let code :=
    if typescript then
      "const emit = defineEmits<\x7b\n"
        ++ join "\n" (subjects.map fun subject =>
          indent ++ "'update:" ++ subject ++ "': [value: " ++ eventType props subject ++ "];")
        ++ "\n\x7d>();"
    else "const emit = defineEmits(["
      ++ join ", " (subjects.map fun subject => "'update:" ++ subject ++ "'") ++ "]);"
  { kind := .emits, name := "emit", code }

def stateDeclaration (p : StatePattern) : Declaration :=
  { kind := .derived, name := stateName
    code := "const " ++ stateName ++ " = computed(() => (props." ++ p.valueProp ++ " ? '"
      ++ p.labels.whenTrue ++ "' : '" ++ p.labels.whenFalse ++ "'));" }

/-- The forwarded reference, which callers can reach. -/
def refDeclaration (m : Metadata) (typescript : Bool) (r : RefForward) : Declaration :=
  let name := refName m
  let created := if typescript then "ref<" ++ r.elementType ++ " | null>(null)" else "ref(null)"
  { kind := .ref, name
    code := "const " ++ name ++ " = " ++ created ++ ";\n\ndefineExpose(\x7b " ++ name ++ " \x7d);" }

/-- The function that reports a change of the state. -/
def toggle (c : Component) (p : StatePattern) : Declaration :=
  let emit := "emit('" ++ p.emitEvent ++ "', !props." ++ p.valueProp ++ ");"
  let body :=
    if c.hasProp "disabled" then
      indent ++ "if (!props.disabled) \x7b\n" ++ indent ++ indent ++ emit ++ "\n" ++ indent ++ "\x7d"
    else indent ++ emit
  { kind := .handler, name := toggleName
    code := "function " ++ toggleName ++ "() \x7b\n" ++ body ++ "\n\x7d" }

def declarations (c : Component) (props : List Property) (m : Metadata) (o : Options)
    (callsMerge : Bool) : List Declaration :=
  let planned := (plannedProps props m).filter (!isChangeHandler ·.name)
  let subjects := props.filterMap (changedValue? ·.name)
  let hasClass := declaresClass c m
  let pattern := m.statePattern.toList
  let aliases := renamesOf c ("props." ++ ·)
  sortDeclarations (
    (imports c o m callsMerge).map (fun code => { kind := .importing, code })
    ++ m.variant.toList.map (fun config =>
      { kind := .variant, name := config.name, code := variantDefinition config quote })
    ++ (if o.typescript then [propTypeOf m planned hasClass] else [])
    ++ [propBindingOf (bindings m planned hasClass) o.typescript]
    ++ (if subjects.isEmpty then [] else [emitsOf props subjects o.typescript])
    ++ pattern.map stateDeclaration
    ++ (forwardedRef? c m).toList.map (refDeclaration m o.typescript)
    ++ c.state.map (fun entry =>
      { kind := .state, name := entry.1
        code := "const " ++ entry.1 ++ " = ref(" ++ ClassExpr.renameIdentifiers entry.2 aliases ++ ");" })
    ++ c.effects.map (fun body =>
      { kind := .effect
        code := "onMounted(() => \x7b\n" ++ indentLines (ClassExpr.renameIdentifiers body aliases)
          ++ "\n\x7d);" })
    ++ (pattern.filter (·.isMatch c.props)).map (toggle c))

def sections (ordered : List Declaration) : List String :=
  ([join "\n" ((ordered.filter (·.kind == .importing)).map (·.code))]
    ++ (ordered.filter (·.kind != .importing)).map (·.code)).filter (· ≠ "")

def script (ordered : List Declaration) (typescript : Bool) : String :=
  (if typescript then "<script setup lang=\"ts\">" else "<script setup>") ++ "\n"
    ++ join "\n\n" (sections ordered) ++ "\n</script>"

def generate (c : Component) (o : Options) : Except Report Generated := do
  let m := metadataOf c
  let setting : Setting := ⟨c, m⟩
  let nodes := markupOf c m
  let template ← template setting nodes
  let declarations := declarations c c.props m o (callsMerge setting nodes)
  return {
    name := c.name, target := .vue, declarations
    declarationBlock := script declarations o.typescript
    markupBlock := "<template>\n" ++ indentLines template ++ "\n</template>"
    filename := outputFilename c o, usedFallback := c.root.isEmpty }

end Recast.Generate.Vue
