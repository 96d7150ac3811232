import Recast.Repair.Tags

/-!
# Repairing markup

After native tags are in place, the markup is made fit for its target: void elements lose their
closing tags, elements that forward all attributes and have no content get the content of callers,
and class attributes get their name. Scripts are left alone.
-/

set_option autoImplicit false

namespace Recast.Repair

open Recast.Text

/-- Recognizes a script block: its opening tag, its body and its closing tag. -/
def scriptBlock : Rule (List Char × List Char × List Char) := fun _ cs => do
  let rest ← after? "<script".toList cs
  guard (!rest.head?.any isWord)
  let (attributes, rest) ← cut? ['>'] rest
  let (body, rest) ← cut? "</script>".toList rest
  return (("<script".toList ++ attributes ++ ['>'], body, "</script>".toList), rest)

/-- Changes a text outside its script blocks, piece by piece. -/
def outsideScripts (f : List Char → List Char) (cs : List Char) : List Char :=
  (segments scriptBlock cs).flatMap fun
    | .plain t => f t
    | .hit t _ => t

def childfulTags : List String := [
  "button", "div", "span", "label", "a", "p", "h1", "h2", "h3", "h4", "h5", "h6", "td", "th", "li",
  "table", "thead", "tbody", "tr", "caption"]

def placeholder (target : Target) (runes : Bool) : List Char :=
  if target = .svelte ∧ runes = true then "\x7b@render children?.()\x7d".toList
  else "<slot />".toList

/-! ## Attribute text -/

/-- The rest of a braced value up to and with its closing brace, and what follows, where `isInner`
says that an inner pair is open. -/
def bracedRest? (isInner : Bool) : List Char → Option (List Char × List Char)
  | [] => none
  | c :: cs =>
    if c = '\x7b' then
      -- Braces nest once.
      if isInner then none else (bracedRest? true cs).map fun r => (c :: r.1, r.2)
    else if c = '\x7d' then
      if isInner then (bracedRest? false cs).map fun r => (c :: r.1, r.2) else some ([c], cs)
    else (bracedRest? isInner cs).map fun r => (c :: r.1, r.2)

/-- One item of attribute text: a quoted or braced value, or a character other than the bracket that
ends a tag. -/
def attributeItem? : List Char → Option (List Char × List Char)
  | [] => none
  | c :: cs =>
    if c = '>' then none
    else if c = '"' ∨ c = '\'' then (cut? [c] cs).map fun r => (c :: r.1 ++ [c], r.2)
    else if c = '\x7b' then (bracedRest? false cs).map fun r => (c :: r.1, r.2)
    else some ([c], cs)

/-- The longest run of items, at most `n` of them, and the rest. -/
def attributeItemsUpTo : Nat → List Char → List (List Char) × List Char
  | 0, cs => ([], cs)
  | n + 1, cs =>
    match attributeItem? cs with
    | none => ([], cs)
    | some (item, rest) =>
      let (items, rest) := attributeItemsUpTo n rest
      (item :: items, rest)

def attributeItems (cs : List Char) : List (List Char) × List Char :=
  -- Items are not empty, so the length bounds their number.
  attributeItemsUpTo cs.length cs

/-! ## Rules -/

def voidClosing : Rule (List Char) := fun _ cs => do
  let rest ← after? "</".toList cs
  let rest ← Markup.voidTags.findSome? fun tag => (after? tag.toList rest).bind (afterWord? ">")
  return ([], rest)

/-- Recognizes the tag name of a native element and gives it and the rest. -/
def nativeName? (cs : List Char) : Option (List Char × List Char) := do
  let rest ← after? ['<'] cs
  let isTagChar (c : Char) : Bool := c.isLower || c.isDigit
  guard (rest.head?.any Char.isLower)
  return (rest.takeWhile isTagChar, rest.dropWhile isTagChar)

/-- Recognizes an element that closes itself and writes it with a closing tag, unless it is void or
a slot. -/
def selfClosing : Rule (List Char) := fun _ cs => do
  let (tag, rest) ← nativeName? cs
  let (attributes, rest) ←
    match rest with
    | [] => none
    | c :: more =>
      if isBlank c then
        let (items, rest) := attributeItems more
        if items.getLast? = some ['/'] ∧ rest.head? = some '>' then
          some (c :: items.dropLast.flatten, rest.drop 1)
        else none
      else (after? "/>".toList rest).map fun rest => ([], rest)
  let name := String.ofList tag
  if Markup.voidTags.contains name || name == "slot" then
    return (cs.take (cs.length - rest.length), rest)
  else return ('<' :: tag ++ dropEndWhile isBlank attributes ++ "></".toList ++ tag ++ ['>'], rest)

/-- Recognizes an attribute that forwards all others. -/
def forwarding : Rule Unit := fun _ cs =>
  let spread : Option (List Char) := do
    let rest ← after? "\x7b...".toList cs
    let isVariableChar (c : Char) : Bool := isWord c || c == '$'
    guard (rest.head?.any isVariableChar)
    after? ['\x7d'] (rest.dropWhile isVariableChar)
  let bind := after? "v-bind=\"$attrs\"".toList cs <|> after? "v-bind=\"$props\"".toList cs
  (spread <|> bind).map fun rest => ((), rest)

/-- The attribute text behind a tag name up to the bracket that ends the tag, and the rest. -/
def tagAttributes? : List Char → Option (List Char × List Char)
  | [] => none
  | c :: cs =>
    if c = '>' then some ([], cs)
    else if isBlank c then
      let (items, rest) := attributeItems cs
      (after? ['>'] rest).map fun rest => (c :: items.flatten, rest)
    else none

/-- Recognizes an empty element that could take content. -/
def emptyElement (placeholder : List Char) : Rule (List Char) := fun _ cs => do
  let rest ← after? ['<'] cs
  childfulTags.findSome? fun tag => do
    let tag := tag.toList
    let (attributes, rest) ← tagAttributes? (← after? tag rest)
    let closing := "</".toList ++ tag ++ ['>']
    let rest ← after? closing (rest.dropWhile isBlank)
    -- An element that forwards all attributes gets the placeholder.
    if recognizes forwarding attributes then
      return ('<' :: tag ++ attributes ++ '>' :: placeholder ++ closing, rest)
    else return (cs.take (cs.length - rest.length), rest)

/-- Recognizes a class attribute under the name it has in the source. -/
def classNameAttribute : Rule (List Char) := fun previous cs => do
  guard (previous.any fun c => isBlank c || c == ':')
  let rest ← after? "className=".toList cs
  guard (rest.head?.any fun c => c == '"' || c == '\'' || c == '\x7b')
  return ("class=".toList, rest)

def fixMarkup (target : Target) (runes : Bool) (cs : List Char) : List Char :=
  let cs := substitute voidClosing cs
  let cs := if target = .svelte then substitute selfClosing cs else cs
  let cs := substitute (emptyElement (placeholder target runes)) cs
  substitute classNameAttribute cs

def repairMarkup (text : List Char) (target : Target)
    (table : Assoc String := Catalog.primitiveTags) (runes : Bool := true) : Repaired :=
  let r := substituteTags text target table
  { r with text := outsideScripts (fixMarkup target runes) r.text }

end Recast.Repair
