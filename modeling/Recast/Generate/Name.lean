import Recast.Assoc
import Recast.Text.Blank
import Recast.Text.Case
import Recast.Text.Digit
import Recast.Text.Search
import Recast.Text.Word

/-!
# Names and literals

How names of the source framework are spelled in markup, and how default values are written.
-/

set_option autoImplicit false

namespace Recast.Generate

open Recast.Text

def attributeNames : Assoc String := [
  ("className", "class"), ("htmlFor", "for"), ("tabIndex", "tabindex"), ("autoFocus", "autofocus"),
  ("autoComplete", "autocomplete"), ("readOnly", "readonly"), ("maxLength", "maxlength")]

def attributeName (name : String) : String := (attributeNames.get? name).getD name

/-- The characters of a text without one line feed at its end. -/
def withoutLineFeed (cs : List Char) : List Char :=
  if cs.getLast? = some '\n' then cs.dropLast else cs

def isCapitalWord : List Char → Bool
  | [] => false
  | c :: cs => c.isUpper && cs.all isWord

/-- The text before an ending. -/
def before? (ending cs : List Char) : Option (List Char) :=
  (after? ending.reverse cs.reverse).map List.reverse

/-- The value that a change handler reports on: `onCheckedChange` reports on `checked`, and
`onValueChange` on the model value. -/
def changedValue? (name : String) : Option String := do
  let rest ← after? "on".toList (withoutLineFeed name.toList)
  let subject ← (before? "Change".toList rest).filter isCapitalWord
  match subject with
  | [] => none
  | c :: cs => return if subject = "Value".toList then "modelValue" else String.ofList (c.toLower :: cs)

def isChangeHandler (name : String) : Bool := (changedValue? name).isSome

/-- A number starts with a digit, after a minus sign or not. -/
def startsNumber : List Char → Bool
  | '-' :: c :: _ => isDigit c
  | c :: _ => isDigit c
  | [] => false

def valueWords : List String := ["true", "false", "null", "undefined"]

/-- A default value as code. -/
def formatDefault (value : Option String) (quote : String := "\"") : Option String := do
  let text ← value.map (stripChars ·.toList)
  let first ← text.head?
  let last ← text.getLast?
  if 2 ≤ text.length ∧ first = last ∧ (first = '"' ∨ first = '\'' ∨ first = '`') then
    -- Templates stay, and other quoted texts get the given quotes.
    if first = '`' then return String.ofList text
    else return quote ++ String.ofList (text.drop 1).dropLast ++ quote
  else if valueWords.contains (String.ofList text) || startsNumber text
      || first == '[' || first == '\x7b' || first == '(' || occurs "=>".toList text then
    return String.ofList text
  -- A bare word is a text.
  else return quote ++ String.ofList text ++ quote

end Recast.Generate
