import Recast.Component.Variant
import Recast.Generate.Name

/-!
# Variant tables

The statement that defines a variant configuration in a generated script.
-/

set_option autoImplicit false

namespace Recast.Generate

open Recast.Text

def isPlainKey (key : String) : Bool :=
  match withoutLineFeed key.toList with
  | [] => false
  | c :: cs => (c.isAlpha || c == '_' || c == '$') && cs.all fun d => isWord d || d == '$'

def axisLines (quote : String) (axis : String × Assoc String) : List String :=
  ["      " ++ axis.1 ++ ": \x7b"]
    ++ axis.2.map (fun entry =>
      let key := if isPlainKey entry.1 then entry.1 else quote ++ entry.1 ++ quote
      "        " ++ key ++ ": " ++ quote ++ entry.2 ++ quote ++ ",")
    ++ ["      \x7d,"]

def conditionText (quote : String) : Condition → String
  | .is value => quote ++ value ++ quote
  | .isOneOf values => "[" ++ join ", " (values.map fun v => quote ++ v ++ quote) ++ "]"

def compoundLine (quote : String) (c : CompoundVariant) : String :=
  let entries := c.conditions.map (fun entry => entry.1 ++ ": " ++ conditionText quote entry.2)
    ++ ["class: " ++ quote ++ c.classes ++ quote]
  "      \x7b " ++ join ", " entries ++ " \x7d,"

def compoundLines (quote : String) (compounds : List CompoundVariant) : List String :=
  if compounds.isEmpty then []
  else ["    compoundVariants: ["] ++ compounds.map (compoundLine quote) ++ ["    ],"]

/-- The quotes of the base classes: backquotes if they hold a placeholder. -/
def baseQuote (quote : String) (config : VariantConfig) : String :=
  if contains "$\x7b" config.baseClasses then "`" else quote

def variantDefinition (config : VariantConfig) (quote : String) : String :=
  let base := baseQuote quote config
  join "\n" (
    ["const " ++ config.name ++ " = cva(", "  " ++ base ++ config.baseClasses ++ base ++ ",",
      "  \x7b", "    variants: \x7b"]
    ++ config.variants.flatMap (axisLines quote)
    ++ ["    \x7d,"]
    ++ compoundLines quote config.compounds
    ++ ["    defaultVariants: \x7b"]
    ++ config.defaults.map (fun entry => "      " ++ entry.1 ++ ": " ++ quote ++ entry.2 ++ quote ++ ",")
    ++ ["    \x7d,", "  \x7d", ");"])

end Recast.Generate
