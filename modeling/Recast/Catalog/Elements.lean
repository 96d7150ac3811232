import Recast.Assoc
import Recast.Text.Blank
import Recast.Text.Search
import Recast.Text.Word

/-!
# Element types

Names of element types: reduced from the type arguments a source writes, and turned into tags and
attribute types.
-/

set_option autoImplicit false

namespace Recast.Catalog

open Recast.Text

/-- The element type when nothing better is known. -/
def genericElementType : String := "HTMLElement"

/-- The element type behind a primitive part, by dotted name or by the part alone. -/
def primitiveElementTypes : Assoc String := [
  ("Root", "HTMLDivElement"), ("Trigger", "HTMLButtonElement"), ("Content", "HTMLDivElement"),
  ("Close", "HTMLButtonElement"), ("Portal", "HTMLDivElement"), ("Overlay", "HTMLDivElement"),
  ("Title", "HTMLHeadingElement"), ("Description", "HTMLParagraphElement"),
  ("LabelPrimitive.Root", "HTMLLabelElement"), ("DialogPrimitive.Root", "HTMLDivElement"),
  ("DialogPrimitive.Trigger", "HTMLButtonElement"), ("DialogPrimitive.Content", "HTMLDivElement"),
  ("DialogPrimitive.Close", "HTMLButtonElement"), ("DialogPrimitive.Title", "HTMLHeadingElement"),
  ("DialogPrimitive.Description", "HTMLParagraphElement"),
  ("DialogPrimitive.Overlay", "HTMLDivElement"), ("DropdownMenuPrimitive.Root", "HTMLDivElement"),
  ("DropdownMenuPrimitive.Trigger", "HTMLButtonElement"),
  ("DropdownMenuPrimitive.Content", "HTMLDivElement"),
  ("DropdownMenuPrimitive.Item", "HTMLDivElement"),
  ("DropdownMenuPrimitive.CheckboxItem", "HTMLDivElement"),
  ("DropdownMenuPrimitive.RadioItem", "HTMLDivElement"),
  ("DropdownMenuPrimitive.Label", "HTMLDivElement"),
  ("DropdownMenuPrimitive.Separator", "HTMLDivElement"),
  ("DropdownMenuPrimitive.SubTrigger", "HTMLDivElement"),
  ("DropdownMenuPrimitive.SubContent", "HTMLDivElement"),
  ("AccordionPrimitive.Root", "HTMLDivElement"), ("AccordionPrimitive.Item", "HTMLDivElement"),
  ("AccordionPrimitive.Trigger", "HTMLButtonElement"),
  ("AccordionPrimitive.Content", "HTMLDivElement"),
  ("AlertDialogPrimitive.Action", "HTMLButtonElement"),
  ("AlertDialogPrimitive.Cancel", "HTMLButtonElement"), ("AvatarPrimitive.Root", "HTMLSpanElement"),
  ("AvatarPrimitive.Image", "HTMLImageElement"), ("AvatarPrimitive.Fallback", "HTMLSpanElement"),
  ("CheckboxPrimitive.Root", "HTMLButtonElement"),
  ("CheckboxPrimitive.Indicator", "HTMLSpanElement"),
  ("CollapsiblePrimitive.Trigger", "HTMLButtonElement"),
  ("ContextMenuPrimitive.Trigger", "HTMLSpanElement"),
  ("HoverCardPrimitive.Trigger", "HTMLAnchorElement"),
  ("NavigationMenuPrimitive.Root", "HTMLElement"),
  ("NavigationMenuPrimitive.List", "HTMLUListElement"),
  ("NavigationMenuPrimitive.Item", "HTMLLIElement"),
  ("NavigationMenuPrimitive.Link", "HTMLAnchorElement"),
  ("PopoverPrimitive.Trigger", "HTMLButtonElement"), ("ProgressPrimitive.Root", "HTMLDivElement"),
  ("ProgressPrimitive.Indicator", "HTMLDivElement"),
  ("RadioGroupPrimitive.Item", "HTMLButtonElement"),
  ("RadioGroupPrimitive.Indicator", "HTMLSpanElement"),
  ("ScrollAreaPrimitive.Root", "HTMLDivElement"), ("SelectPrimitive.Trigger", "HTMLButtonElement"),
  ("SelectPrimitive.Value", "HTMLSpanElement"), ("SelectPrimitive.ItemText", "HTMLSpanElement"),
  ("SelectPrimitive.ItemIndicator", "HTMLSpanElement"),
  ("SeparatorPrimitive.Root", "HTMLDivElement"), ("SliderPrimitive.Root", "HTMLSpanElement"),
  ("SliderPrimitive.Track", "HTMLSpanElement"), ("SliderPrimitive.Range", "HTMLSpanElement"),
  ("SliderPrimitive.Thumb", "HTMLSpanElement"), ("SwitchPrimitive.Root", "HTMLButtonElement"),
  ("SwitchPrimitives.Root", "HTMLButtonElement"), ("SwitchPrimitive.Thumb", "HTMLSpanElement"),
  ("SwitchPrimitives.Thumb", "HTMLSpanElement"), ("TabsPrimitive.List", "HTMLDivElement"),
  ("TabsPrimitive.Trigger", "HTMLButtonElement"), ("ToastPrimitive.Root", "HTMLLIElement"),
  ("ToastPrimitive.Viewport", "HTMLOListElement"), ("TogglePrimitive.Root", "HTMLButtonElement"),
  ("ToggleGroupPrimitive.Item", "HTMLButtonElement"),
  ("TooltipPrimitive.Trigger", "HTMLButtonElement")]

def elementTypeTags : Assoc String := [
  ("HTMLButtonElement", "button"), ("HTMLInputElement", "input"),
  ("HTMLTextAreaElement", "textarea"), ("HTMLSelectElement", "select"), ("HTMLAnchorElement", "a"),
  ("HTMLDivElement", "div"), ("HTMLSpanElement", "span"), ("HTMLFormElement", "form"),
  ("HTMLImageElement", "img"), ("HTMLParagraphElement", "p"), ("HTMLHeadingElement", "h5"),
  ("HTMLLabelElement", "label")]

/-- Element types with an attribute type of their own. -/
def svelteAttributeTypes : Assoc String := [
  ("HTMLButtonElement", "HTMLButtonAttributes"), ("HTMLInputElement", "HTMLInputAttributes"),
  ("HTMLTextAreaElement", "HTMLTextareaAttributes"), ("HTMLSelectElement", "HTMLSelectAttributes"),
  ("HTMLAnchorElement", "HTMLAnchorAttributes"), ("HTMLFormElement", "HTMLFormAttributes"),
  ("HTMLImageElement", "HTMLImgAttributes"), ("HTMLLabelElement", "HTMLLabelAttributes")]

def tagElementType? (tag : String) : Option String :=
  (elementTypeTags.find? fun entry => entry.2 == tag).map (·.1)

/-- Recognizes `ElementRef<` or `ComponentRef<` and returns what follows. -/
def afterRefType? (cs : List Char) : Option (List Char) := do
  let rest ← (after? "ElementRef".toList cs) <|> (after? "ComponentRef".toList cs)
  let rest ← after? ['<'] (rest.dropWhile isBlank)
  return rest.dropWhile isBlank

def closesRef (cs : List Char) : Bool := (cs.dropWhile isBlank).head? == some '>'

/-- Recognizes a reference to a native tag in quotes. -/
def intrinsicRef? (cs : List Char) : Option String := do
  let isQuote (c : Char) : Bool := c == '"' || c == '\''
  let body ← afterRefType? cs
  guard (body.head?.any isQuote)
  let name := (body.drop 1).takeWhile isWord
  let rest := (body.drop 1).dropWhile isWord
  guard (name ≠ [] && rest.head?.any isQuote && closesRef (rest.drop 1))
  return String.ofList name

def componentRef? (cs : List Char) : Option String := do
  let isPath (c : Char) : Bool := isWord c || c == '.'
  let body ← after? "typeof".toList (← afterRefType? cs)
  guard (body.head?.any isBlank)
  let body := body.dropWhile isBlank
  let path := body.takeWhile isPath
  guard (path ≠ [] && closesRef (body.dropWhile isPath))
  return String.ofList path

def lastPart (name : String) : String :=
  ((split '.' name).getLast?).getD name

/-- The element type behind a component reference: looked up by its full name, then, for a dotted
name, by its last part. -/
def referencedElementType (reference : String) : String :=
  match primitiveElementTypes.get? reference with
  | some t => t
  | none =>
    if reference.toList.contains '.' then
      (primitiveElementTypes.get? (lastPart reference)).getD genericElementType
    else genericElementType

/-- Reduces a type argument to an element type. Names of element types pass; references to a native
tag or to a component are looked up; all else is generic. -/
def normalizeElementType (raw : String) : String :=
  let text := join " " (words raw)
  if startsWith "HTML" text && endsWith "Element" text then text
  else match firstMatch? intrinsicRef? text.toList with
    | some tag => (tagElementType? tag).getD genericElementType
    | none =>
      match firstMatch? componentRef? text.toList with
      | some reference => referencedElementType reference
      | none => genericElementType

/-- The tag for an element type, a division when there is none. -/
def tagForElementType (elementType : Option String) : String :=
  (elementType.bind elementTypeTags.get?).getD "div"

def svelteAttributesType (elementType : String) : String :=
  (svelteAttributeTypes.get? elementType).getD ("HTMLAttributes<" ++ elementType ++ ">")

def svelteAttributesImport (elementType : String) : String :=
  (svelteAttributeTypes.get? elementType).getD "HTMLAttributes"

end Recast.Catalog
