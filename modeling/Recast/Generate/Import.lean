import Recast.Catalog.Icons
import Recast.Component.Basic

/-!
# Imports

Which imports of the source survive into the output, and how they are written.
-/

set_option autoImplicit false

namespace Recast.Generate

open Recast.Text

/-- Names that generated scripts import themselves. -/
def ownNames : List String := ["cn", "cva", "VariantProps"]

/-- Categories that have no place in the output. -/
def isDropped : ImportCategory → Bool
  | .react | .primitive | .utility => true
  | .style | .icon | .other => false

/-- An import as the output has it, if it survives: without the names that scripts import
themselves, and with the counterpart of an icon package. -/
def carriedImport? (target : Target) (i : Import) : Option Import :=
  let named := i.named.filter (!ownNames.contains ·)
  let isEmptied := !i.named.isEmpty && named.isEmpty
    && (i.default.filter (· ≠ "")).isNone && (i.namespaceName.filter (· ≠ "")).isNone
  if isDropped i.category || isEmptied then none
  else
    let source :=
      if i.category = .icon then (Catalog.iconPackageFor? i.source target).getD i.source
      else i.source
    some { i with source, named }

def carriedImports (imports : List Import) (target : Target) : List Import :=
  imports.filterMap (carriedImport? target)

/-- What an import statement binds, in the order default, namespace, names. -/
def importClauses (i : Import) : List String :=
  (i.default.filter (· ≠ "")).toList
    ++ ((i.namespaceName.filter (· ≠ "")).map ("* as " ++ ·)).toList
    ++ (if i.named.isEmpty then [] else ["\x7b " ++ join ", " i.named ++ " \x7d"])

def renderImport (i : Import) (quote : String) (semicolon : Bool := true) : String :=
  let source := quote ++ i.source ++ quote ++ (if semicolon then ";" else "")
  let keyword := if i.isTypeOnly then "import type " else "import "
  match importClauses i with
  | [] => "import " ++ source
  | clauses => keyword ++ join ", " clauses ++ " from " ++ source

end Recast.Generate
