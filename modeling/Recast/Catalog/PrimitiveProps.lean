import Recast.Component.Basic

/-!
# Props of wrapped primitives

The props each part of a primitive package accepts, keyed by package and part. A component that
only names the part's prop type gets its props from here.
-/

set_option autoImplicit false

namespace Recast.Catalog

structure PrimitiveProp where
  name : String
  type : String
  optional : Bool := true
  defaultValue : Option String := none
  stateLabels : Option StateLabels := none
  deriving DecidableEq, Repr

def asChild : PrimitiveProp := { name := "asChild", type := "boolean" }

def checkedLabels : StateLabels := ⟨"checked", "unchecked"⟩

def pressedLabels : StateLabels := ⟨"on", "off"⟩

def primitiveProps : Assoc (Assoc (List PrimitiveProp)) := [
  ("@radix-ui/react-switch", [
    ("Root", [
      asChild, { name := "checked", type := "boolean", stateLabels := some checkedLabels },
      { name := "defaultChecked", type := "boolean" },
      { name := "onCheckedChange", type := "(checked: boolean) => void" },
      { name := "disabled", type := "boolean" }, { name := "required", type := "boolean" },
      { name := "name", type := "string" },
      { name := "value", type := "string", defaultValue := some "\"on\"" }]),
    ("Thumb", [asChild])]),
  ("@radix-ui/react-checkbox", [
    ("Root", [
      asChild,
      { name := "checked", type := "boolean | \"indeterminate\"", stateLabels := some checkedLabels },
      { name := "defaultChecked", type := "boolean" },
      { name := "onCheckedChange", type := "(checked: boolean | \"indeterminate\") => void" },
      { name := "disabled", type := "boolean" }, { name := "required", type := "boolean" },
      { name := "name", type := "string" },
      { name := "value", type := "string", defaultValue := some "\"on\"" }]),
    ("Indicator", [asChild, { name := "forceMount", type := "boolean" }])]),
  ("@radix-ui/react-toggle", [
    ("Root", [
      asChild, { name := "pressed", type := "boolean", stateLabels := some pressedLabels },
      { name := "defaultPressed", type := "boolean" },
      { name := "onPressedChange", type := "(pressed: boolean) => void" },
      { name := "disabled", type := "boolean" }])]),
  ("@radix-ui/react-separator", [
    ("Root", [
      asChild,
      { name := "orientation", type := "\"horizontal\" | \"vertical\"", defaultValue := some "\"horizontal\"" },
      { name := "decorative", type := "boolean", defaultValue := some "true" }])]),
  ("@radix-ui/react-progress", [
    ("Root", [
      asChild, { name := "value", type := "number | null" },
      { name := "max", type := "number", defaultValue := some "100" },
      { name := "getValueLabel", type := "(value: number, max: number) => string" }]),
    ("Indicator", [asChild])]),
  ("@radix-ui/react-slider", [
    ("Root", [
      asChild, { name := "value", type := "number[]" },
      { name := "defaultValue", type := "number[]" },
      { name := "onValueChange", type := "(value: number[]) => void" },
      { name := "onValueCommit", type := "(value: number[]) => void" },
      { name := "min", type := "number", defaultValue := some "0" },
      { name := "max", type := "number", defaultValue := some "100" },
      { name := "step", type := "number", defaultValue := some "1" },
      { name := "orientation", type := "\"horizontal\" | \"vertical\"", defaultValue := some "\"horizontal\"" },
      { name := "disabled", type := "boolean" }, { name := "inverted", type := "boolean" },
      { name := "name", type := "string" }]),
    ("Track", [asChild]),
    ("Range", [asChild]),
    ("Thumb", [asChild])]),
  ("@radix-ui/react-tabs", [
    ("Root", [
      asChild, { name := "value", type := "string" }, { name := "defaultValue", type := "string" },
      { name := "onValueChange", type := "(value: string) => void" },
      { name := "orientation", type := "\"horizontal\" | \"vertical\"", defaultValue := some "\"horizontal\"" },
      { name := "dir", type := "\"ltr\" | \"rtl\"" },
      { name := "activationMode", type := "\"automatic\" | \"manual\"", defaultValue := some "\"automatic\"" }]),
    ("List", [asChild, { name := "loop", type := "boolean", defaultValue := some "true" }]),
    ("Trigger", [
      asChild, { name := "value", type := "string", optional := false },
      { name := "disabled", type := "boolean" }]),
    ("Content", [
      asChild, { name := "value", type := "string", optional := false },
      { name := "forceMount", type := "boolean" }])]),
  ("@radix-ui/react-accordion", [
    ("Root", [
      asChild, { name := "type", type := "\"single\" | \"multiple\"", optional := false },
      { name := "value", type := "string | string[]" },
      { name := "defaultValue", type := "string | string[]" },
      { name := "onValueChange", type := "(value: string | string[]) => void" },
      { name := "collapsible", type := "boolean" }, { name := "disabled", type := "boolean" },
      { name := "dir", type := "\"ltr\" | \"rtl\"" },
      { name := "orientation", type := "\"horizontal\" | \"vertical\"", defaultValue := some "\"vertical\"" }]),
    ("Item", [
      asChild, { name := "value", type := "string", optional := false },
      { name := "disabled", type := "boolean" }]),
    ("Header", [asChild]),
    ("Trigger", [asChild]),
    ("Content", [asChild, { name := "forceMount", type := "boolean" }])]),
  ("@radix-ui/react-radio-group", [
    ("Root", [
      asChild, { name := "value", type := "string" }, { name := "defaultValue", type := "string" },
      { name := "onValueChange", type := "(value: string) => void" },
      { name := "disabled", type := "boolean" }, { name := "required", type := "boolean" },
      { name := "name", type := "string" },
      { name := "orientation", type := "\"horizontal\" | \"vertical\"" },
      { name := "dir", type := "\"ltr\" | \"rtl\"" },
      { name := "loop", type := "boolean", defaultValue := some "true" }]),
    ("Item", [
      asChild, { name := "value", type := "string", optional := false },
      { name := "disabled", type := "boolean" }, { name := "required", type := "boolean" }]),
    ("Indicator", [asChild, { name := "forceMount", type := "boolean" }])]),
  ("@radix-ui/react-label", [
    ("Root", [asChild, { name := "htmlFor", type := "string" }])]),
  ("@radix-ui/react-avatar", [
    ("Root", [asChild]),
    ("Image", [
      asChild,
      { name := "onLoadingStatusChange", type := "(status: \"idle\" | \"loading\" | \"loaded\" | \"error\") => void" }]),
    ("Fallback", [asChild, { name := "delayMs", type := "number" }])]),
  ("@radix-ui/react-scroll-area", [
    ("Root", [
      asChild,
      { name := "type", type := "\"auto\" | \"always\" | \"scroll\" | \"hover\"", defaultValue := some "\"hover\"" },
      { name := "scrollHideDelay", type := "number", defaultValue := some "600" },
      { name := "dir", type := "\"ltr\" | \"rtl\"" }]),
    ("Viewport", [asChild]),
    ("Scrollbar", [
      asChild,
      { name := "orientation", type := "\"horizontal\" | \"vertical\"", defaultValue := some "\"vertical\"" },
      { name := "forceMount", type := "boolean" }]),
    ("Thumb", [asChild]),
    ("Corner", [asChild])])]

def primitivePackageStart : String := "@radix-ui/"

def primitivePropsFor? (package part : String) : Option (List PrimitiveProp) := do
  (← primitiveProps.get? package).get? part

end Recast.Catalog
