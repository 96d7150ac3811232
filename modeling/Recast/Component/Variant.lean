import Recast.Assoc
import Recast.Error
import Recast.Text.Search

/-!
# Variant configurations

A named table of classes: base classes, one axis per variant prop with the classes of each of its
values, defaults, and classes for combinations.
-/

set_option autoImplicit false

namespace Recast

/-- What a compound variant asks of one axis. -/
inductive Condition where
  | is (value : String)
  | isOneOf (values : List String)
  deriving DecidableEq, Repr

/-- Classes that apply when all conditions hold. -/
structure CompoundVariant where
  conditions : Assoc Condition := []
  classes : String := ""
  deriving DecidableEq, Repr

structure VariantConfig where
  name : String
  baseClasses : String := ""
  variants : Assoc (Assoc String) := []
  defaults : Assoc String := []
  compounds : List CompoundVariant := []
  deriving DecidableEq, Repr

namespace VariantConfig

def axes (c : VariantConfig) : List String := c.variants.keys

def hasAxis (c : VariantConfig) (axis : String) : Bool := c.variants.has axis

/-- The values of an axis, none for an unknown axis. -/
def allowedValues (c : VariantConfig) (axis : String) : List String :=
  ((c.variants.get? axis).getD []).keys

/-- The values of an axis as a union of quoted texts. -/
def unionType (c : VariantConfig) (axis : String) (quote : String := "\"") : String :=
  Text.join " | " ((c.allowedValues axis).map fun v => quote ++ v ++ quote)

/-- The defaults that name no axis. -/
def strayDefaults (c : VariantConfig) : List String :=
  c.defaults.keys.filter fun key => !c.hasAxis key

def check (c : VariantConfig) : Except Report VariantConfig :=
  match c.strayDefaults with
  | [] => .ok c
  | stray => .error {
      kind := .variantConfig
      message := "Variant configuration '" ++ c.name
        ++ "' declares defaults for unknown variant axes: "
        ++ Text.join ", " (stray.mergeSort (· ≤ ·))
      hint := some "Every defaultVariants key must appear under variants." }

end VariantConfig

end Recast
