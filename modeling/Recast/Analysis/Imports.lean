import Recast.Catalog.Icons
import Recast.Catalog.PrimitiveProps
import Recast.Tsx.Tree

/-!
# Imports of a source

Which modules a source imports, what each import is for, and whether the class-merge helper is in
use.
-/

set_option autoImplicit false

namespace Recast.Analysis

open Recast.Tsx

/-- The helper that merges class lists. -/
def classMergeName : String := "cn"

/-- The function that builds variant configurations. -/
def variantBuilderName : String := "cva"

def utilityPackages : List String := ["clsx", "tailwind-merge", "class-variance-authority"]

def styleEndings : List String := [".css", ".scss", ".sass", ".less"]

/-- What an import is for, judged by its module and the names it binds. -/
def categorizeImport (source : String) (named : List String) : ImportCategory :=
  -- The first rule that fits decides.
  if source == "react" || Text.startsWith "react/" source || Text.startsWith "react-dom" source then
    .react
  else if Text.startsWith Catalog.primitivePackageStart source then .primitive
  else if Catalog.isIconPackage source then .icon
  else if Text.contains "/utils" source || utilityPackages.contains source
      || named.contains classMergeName || named.contains variantBuilderName then .utility
  else if styleEndings.any (Text.endsWith · source) || Text.contains "styles" source then .style
  else .other

/-- Adds what one part of an import clause binds. -/
def bindClausePart (info : Import) (part : Tree) : Import :=
  match part.kind with
  | .identifier => { info with default := some part.text }
  | .namespaceImport =>
    match part.parts.find? (·.kind = .identifier) with
    | some name => { info with namespaceName := some name.text }
    | none => info
  | .namedImports =>
    let specifiers := part.parts.filter (·.kind = .importSpecifier)
    let localNames := specifiers.map fun s =>
      match s.field? .alias with
      | some a => a.text
      | none => s.fieldText .name
    { info with named := info.named ++ localNames }
  | _ => info

/-- The record of an import statement. Statements that name no module have none. -/
def importOf? (statement : Tree) : Option Import := do
  let source ← (← statement.field? .source).stringValue?
  let isTypeOnly := statement.children.any fun c => c.kind = .token && c.text == "type"
  let clauses := statement.parts.filter (·.kind = .importClause)
  let info := (clauses.flatMap Tree.parts).foldl bindClausePart { source, isTypeOnly }
  return { info with category := categorizeImport source info.named }

def topLevel (root : Tree) : List Tree := root.parts

def importsOf (root : Tree) : List Import :=
  ((topLevel root).filter (·.kind = .importStatement)).filterMap importOf?

def isCallOf (name : String) (t : Tree) : Bool :=
  t.kind = .call && t.fieldText .callee == name

/-- The class-merge helper counts as used only when it is both imported and called. -/
def usesClassMerge (root : Tree) (imports : List Import) : Bool :=
  imports.any (·.binds classMergeName) && root.walk.any (isCallOf classMergeName)

/-- The module behind each namespace identifier. -/
def namespaceSources (imports : List Import) : Assoc String :=
  Assoc.ofEntries (imports.filterMap fun i =>
    match i.namespaceName with
    | some n => if n = "" then none else some (n, i.source)
    | none => none)

end Recast.Analysis
