import Recast.Tsx.Grammar.Type

/-!
# Binding patterns

The left sides of declarations and the formal parameters: names, and object and array patterns
with renamings, defaults and a rest.
-/

set_option autoImplicit false

namespace Recast.Tsx

def defaultedBinding (rules : Rules) : Reader Tree := do
  let start ← mark
  let p ← rules .binding
  (do
    op "="
    let v ← rules (.single {})
    close start .defaultedPattern [p.withRole .left, v.withRole .right]) <|> return p

def restBinding (rules : Rules) : Reader Tree :=
  node .restPattern do
    sym "..."
    return [← rules .binding]

def objectBindingEntry (rules : Rules) : Reader Tree :=
  restBinding rules
    <|> node .pairPattern (do
      let key ← propertyName rules
      sym ":"
      let value ← defaultedBinding rules
      return [key.withRole .key, value.withRole .value])
    <|> node .defaultedShorthand (do
      let name ← leaf .shorthandPattern word
      op "="
      let value ← rules (.single {})
      return [name.withRole .left, value.withRole .right])
    <|> leaf .shorthandPattern word

def objectBinding (rules : Rules) : Reader Tree :=
  node .objectPattern do
    sym "\x7b"
    let entries ← commaList (objectBindingEntry rules)
    sym "\x7d"
    return entries

/-- Reads an array pattern, where places may be left empty. -/
def arrayBinding (rules : Rules) : Reader Tree :=
  node .arrayPattern do
    sym "["
    let slot := optional (restBinding rules <|> defaultedBinding rules)
    let first ← slot
    let more ← many (do sym ","; slot)
    sym "]"
    return first ++ more.flatten

def anyBinding (rules : Rules) : Reader Tree := do
  match ← ahead with
  | '{' :: _ => objectBinding rules
  | '[' :: _ => arrayBinding rules
  | _ => bindingName

end Recast.Tsx
