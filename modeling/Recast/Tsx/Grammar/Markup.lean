import Recast.Tsx.Grammar.Type

/-!
# Markup in expressions

Elements with tags, attributes, text and embedded expressions. The closing tag may name anything;
a tag without a name makes a fragment. Text between tags is taken as it stands, so nothing in it
is a comment.
-/

set_option autoImplicit false

namespace Recast.Tsx

def isDashedChar (c : Char) : Bool := c.isAlphanum || c == '_' || c == '$' || c == '-'

/-- Reads a name that may hold dashes. -/
def markupWord : Reader Unit := do
  let w ← word
  -- Beyond the first dash only plain letters, digits, underscores and dollar signs belong to it.
  if w.toList.all isDashedChar then
    let _ ← optional (do chars "-"; takeWhile isDashedChar)

/-- Reads a tag name: a word, a dotted path, or a name with a namespace. -/
def tagName : Reader Tree := leaf .other do
  markupWord
  (do sym ":"; markupWord) <|> do
    let _ ← many (do sym "."; word)

def attributeName : Reader Tree := leaf .propertyName do
  markupWord
  let _ ← optional (do sym ":"; markupWord)

/-- Reads an expression in braces, a spread, or empty braces. -/
def container (rules : Rules) : Reader Tree :=
  node .container do
    sym "\x7b"
    let content ← optional (node .spread (do
        sym "..."
        return [← rules (.single {})]) <|> rules (.expression {}))
    sym "\x7d"
    return content

/-- The length of a character reference such as an entity name or a code between `&` and `;`. -/
def characterReferenceLength : List Char → Option Nat
  | '&' :: '#' :: cs =>
    let hex := cs.head? == some 'x' || cs.head? == some 'X'
    let body := if hex then cs.drop 1 else cs
    let digits := body.takeWhile (if hex then isHex else Char.isDigit)
    let most := if hex then 6 else 5
    if digits ≠ [] && digits.length ≤ most && body[digits.length]? == some ';' then
      some (digits.length + (if hex then 4 else 3))
    else none
  | '&' :: cs =>
    let name := cs.takeWhile Char.isAlpha
    if name ≠ [] && name.length ≤ 30 && cs[name.length]? == some ';' then some (name.length + 2)
    else none
  | _ => none

def characterReference : Reader Tree := do
  let c ← get
  match characterReferenceLength c.rest with
  | some n => do
    set (c.advance n)
    close c .characterReference []
  | none => failure

/-- Reads a quoted attribute value, which may span lines and has no escapes. -/
def attributeString : Reader Tree := leaf .stringLiteral do
  let q ← satisfy fun c => c == '"' || c == '\''
  let _ ← many (takeSome (fun c => c != q && c != '&')
    <|> (do let _ ← characterReference)
    -- An ampersand in front of a letter or a number sign starts a reference and nothing else.
    <|> (do
      chars "&"
      let _ ← satisfy fun c => !c.isAlpha && c != '#'))
  chars (String.singleton q)

def tagAttribute (rules : Rules) : Reader Tree :=
  node .attribute do
    let name ← attributeName
    let value ← optional (do
      sym "="
      skip
      attributeString <|> container rules <|> rules .element)
    return name :: value

def tagContent (rules : Rules) : Reader (List Tree) := do
  let name ← tagName
  let args ← optional (typeArguments rules)
  let attributes ← many (tagAttribute rules <|> container rules)
  return [name.withRole .name] ++ args ++ attributes

def textRun : Reader Tree := do
  let start ← get
  takeSome fun c => !("<>\x7b\x7d&".toList.contains c)
  close start .text []

def markupChild (rules : Rules) : Reader Tree := do
  match (← get).rest with
  | '<' :: '/' :: _ => failure
  | '<' :: _ => rules .element
  | '{' :: _ => container rules
  | '&' :: _ => characterReference
  | _ => textRun

def closingTag : Reader Tree :=
  node .closingTag do
    chars "</"
    let name ← optional tagName
    sym ">"
    return name

def anyElement (rules : Rules) : Reader Tree := do
  let start ← mark
  chars "<"
  let content ← optional (tagContent rules)
  (do
    ensure (!content.isEmpty)
    sym "/>"
    close start .selfClosingTag content.flatten) <|> do
    sym ">"
    let tag ← close start .openingTag content.flatten
    let children ← many (markupChild rules)
    let last ← closingTag
    close start .element ([tag.withRole .openTag] ++ children ++ [last])

end Recast.Tsx
