import Recast.Generate.Declaration

/-!
# Svelte scripts

The same declarations are written with runes or in the older style with exported variables.
-/

set_option autoImplicit false

namespace Recast.Generate.Svelte

open Recast.Text

def propType (d : Declaration) (runes : Bool) : String :=
  let header := "interface " ++ (if runes then "Props" else "$$Props")
    ++ (if d.value = "" then "" else " extends " ++ d.value)
  if d.code = "" then header ++ " \x7b\x7d" else header ++ " \x7b\n" ++ d.code ++ "\n\x7d"

/-- One entry of the pattern that takes the props apart. -/
def runesEntry (b : PropBinding) : String :=
  if b.rest then "..." ++ b.localName
  else
    let names := if b.localName = b.name then b.name else b.name ++ ": " ++ b.localName
    if b.bindable then names ++ " = $bindable(" ++ b.default.getD "" ++ ")"
    else match b.default with
      | some value => names ++ " = " ++ value
      | none => names

def runesBindings (d : Declaration) (typescript : Bool) : String :=
  "let \x7b\n" ++ join ",\n" (d.bindings.map fun b => indent ++ runesEntry b) ++ "\n\x7d"
    ++ (if typescript then ": Props" else "") ++ " = $props();"

/-- The statements that export one prop. -/
def legacyEntry (typescript : Bool) (b : PropBinding) : List String :=
  -- The rest of the props and the children need none.
  if b.rest || b.name == "children" then []
  else
    let ascription := if typescript then ": $$Props[\"" ++ b.name ++ "\"]" else ""
    let value := b.default.getD "undefined"
    if b.localName = b.name then ["export let " ++ b.name ++ ascription ++ " = " ++ value ++ ";"]
    else ["let " ++ b.localName ++ ascription ++ " = " ++ value ++ ";",
      "export \x7b " ++ b.localName ++ " as " ++ b.name ++ " \x7d;"]

def legacyBindings (d : Declaration) (typescript : Bool) : String :=
  join "\n" (d.bindings.flatMap (legacyEntry typescript))

def declarationText (d : Declaration) (runes typescript : Bool) : String :=
  match d.kind with
  | .propType => propType d runes
  | .propBinding => if runes then runesBindings d typescript else legacyBindings d typescript
  | .derived =>
    if runes then "const " ++ d.name ++ " = $derived(" ++ d.value ++ ");"
    else "$: " ++ d.name ++ " = " ++ d.value ++ ";"
  | .state =>
    if runes then "let " ++ d.name ++ " = $state(" ++ d.value ++ ");"
    else "let " ++ d.name ++ " = " ++ d.value ++ ";"
  | .effect =>
    (if runes then "$effect" else "onMount") ++ "(() => \x7b\n" ++ indentLines d.value ++ "\n\x7d);"
  | .importing | .variant | .emits | .ref | .handler => d.code

/-- The import statements, with the one for effects in the older style in front. -/
def importLines (ordered : List Declaration) (runes : Bool) : List String :=
  (if !runes && ordered.any (·.kind == .effect) then ["import \x7b onMount \x7d from \"svelte\";"]
    else [])
  ++ (ordered.filter (·.kind == .importing)).map (·.code)

def hasSection (typescript : Bool) (d : Declaration) : Bool :=
  d.kind != .importing && (typescript || d.kind != .propType)

/-- The sections of a script: all imports together, then each declaration that has any text. -/
def sections (ordered : List Declaration) (runes typescript : Bool) : List String :=
  (match importLines ordered runes with
    | [] => []
    | lines => [join "\n" lines])
  ++ ((ordered.filter (hasSection typescript)).map (declarationText · runes typescript)).filter
    (· ≠ "")

def script (declarations : List Declaration) (runes typescript : Bool) : String :=
  let body := join "\n\n" (sections (sortDeclarations declarations) runes typescript)
  (if typescript then "<script lang=\"ts\">" else "<script>") ++ "\n" ++ indentLines body
    ++ "\n</script>"

end Recast.Generate.Svelte
