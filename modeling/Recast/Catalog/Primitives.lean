import Recast.Assoc
import Recast.Text.Search

/-!
# Wrapped primitives

Which native tag stands in for each part of a wrapped primitive, by its dotted name.
-/

set_option autoImplicit false

namespace Recast.Catalog

def primitiveTags : Assoc String := [
  ("LabelPrimitive.Root", "label"), ("AvatarPrimitive.Root", "span"),
  ("AvatarPrimitive.Image", "img"), ("AvatarPrimitive.Fallback", "span"),
  ("SeparatorPrimitive.Root", "div"), ("ProgressPrimitive.Root", "div"),
  ("ProgressPrimitive.Indicator", "div"), ("CheckboxPrimitive.Root", "button"),
  ("CheckboxPrimitive.Indicator", "span"), ("SwitchPrimitives.Root", "button"),
  ("SwitchPrimitive.Root", "button"), ("SwitchPrimitives.Thumb", "span"),
  ("SwitchPrimitive.Thumb", "span"), ("TogglePrimitive.Root", "button"),
  ("TabsPrimitive.Root", "div"), ("TabsPrimitive.List", "div"), ("TabsPrimitive.Trigger", "button"),
  ("TabsPrimitive.Content", "div"), ("DialogPrimitive.Root", "div"),
  ("DialogPrimitive.Trigger", "button"), ("DialogPrimitive.Portal", "div"),
  ("DialogPrimitive.Overlay", "div"), ("DialogPrimitive.Content", "div"),
  ("DialogPrimitive.Close", "button"), ("DialogPrimitive.Title", "h2"),
  ("DialogPrimitive.Description", "p"), ("PopoverPrimitive.Root", "div"),
  ("PopoverPrimitive.Trigger", "button"), ("PopoverPrimitive.Content", "div"),
  ("PopoverPrimitive.Portal", "div"), ("PopoverPrimitive.Anchor", "div"),
  ("TooltipPrimitive.Provider", "div"), ("TooltipPrimitive.Root", "div"),
  ("TooltipPrimitive.Trigger", "button"), ("TooltipPrimitive.Content", "div"),
  ("TooltipPrimitive.Portal", "div"), ("AccordionPrimitive.Root", "div"),
  ("AccordionPrimitive.Item", "div"), ("AccordionPrimitive.Header", "h3"),
  ("AccordionPrimitive.Trigger", "button"), ("AccordionPrimitive.Content", "div"),
  ("DropdownMenuPrimitive.Root", "div"), ("DropdownMenuPrimitive.Trigger", "button"),
  ("DropdownMenuPrimitive.Portal", "div"), ("DropdownMenuPrimitive.Content", "div"),
  ("DropdownMenuPrimitive.Item", "div"), ("DropdownMenuPrimitive.CheckboxItem", "div"),
  ("DropdownMenuPrimitive.RadioItem", "div"), ("DropdownMenuPrimitive.Label", "div"),
  ("DropdownMenuPrimitive.Separator", "div"), ("DropdownMenuPrimitive.Sub", "div"),
  ("DropdownMenuPrimitive.SubTrigger", "div"), ("DropdownMenuPrimitive.SubContent", "div"),
  ("DropdownMenuPrimitive.ItemIndicator", "span"), ("SliderPrimitive.Root", "div"),
  ("SliderPrimitive.Track", "div"), ("SliderPrimitive.Range", "div"),
  ("SliderPrimitive.Thumb", "span")]

/-- The native tag that replaces a primitive. -/
def nativeTag? (primitive : String) (table : Assoc String := primitiveTags) : Option String :=
  table.get? primitive

def isPrimitiveNamespace (name : String) : Bool :=
  Text.endsWith "Primitive" name || Text.endsWith "Primitives" name

end Recast.Catalog
