import Recast.Plugin.Basic
import Recast.Repair.Imports
import Recast.Runes

/-!
# Plugins that come with the library
-/

set_option autoImplicit false

namespace Recast.Plugin

/-- Gathers the facts about each component that has markup of its own. -/
def consolidated (p : ParsedSource) : ParsedSource :=
  p.updateConvertible fun c => { c with metadata := some (Metadata.ofComponent c p.shared) }

def metadataConsolidation : Plugin :=
  { kind := "MetadataConsolidationPlugin"
    name := "metadata-consolidation"
    order := .int 10
    writes := Metadata.fieldNames
    postParse := deliver fun source _ => consolidated source }

def Context.runes (c : Context) : Bool := c.target = .svelte && c.options.svelte.runes

/-- Turns Svelte components of the older style into ones with runes. -/
def svelteRunes : Plugin :=
  { kind := "SvelteRunesPlugin"
    name := "svelte5-runes"
    order := .int 85
    reads := ["ref_forward", "state_props"]
    appliesTo := Context.runes
    postGenerate := deliver fun code context => Runes.upgrade code context.declarations }

def repaired (table : Assoc String) (code : String) (context : Context) : String :=
  let r := Repair.repairMarkup code.toList context.target table context.runes
  String.ofList (Repair.cleanImports r.text context.target context.runes).text

/-- Puts native tags for the primitives of a table and removes what is left of the source
framework. -/
def primitiveRepair (table : Assoc String := Catalog.primitiveTags) : Plugin :=
  { kind := "PrimitiveRepairPlugin"
    name := "primitive-repair"
    order := .int 90
    reads := ["imports"]
    postGenerate := deliver (repaired table) }

end Recast.Plugin
