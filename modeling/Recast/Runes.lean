import Recast.Generate.Svelte.Script
import Recast.Repair.Markup

/-!
# Upgrading to runes

Turns a Svelte component of the older style into one with runes. If its declarations are known, its
script is written anew from them. Otherwise the script is changed by rules that look at its text
alone.
-/

set_option autoImplicit false

namespace Recast.Runes

open Recast.Text

/-! ## Exported variables -/

/-- The rest of a text behind a type, which ends at an equals sign or a semicolon. -/
def skipType (cs : List Char) : List Char :=
  let isTypeChar (c : Char) : Bool := c != '=' && c != ';'
  match afterWord? ":" cs with
  | some rest => if rest.head?.any isTypeChar then rest.dropWhile isTypeChar else cs
  | none => cs

/-- The value behind an equals sign, up to a semicolon, and the rest. -/
def initialValue (cs : List Char) : Option (List Char) × List Char :=
  let isValueChar (c : Char) : Bool := c != ';'
  match afterWord? "=" cs with
  | some rest =>
    if rest.head?.any isValueChar then
      (some (stripChars (rest.takeWhile isValueChar)), rest.dropWhile isValueChar)
    else (none, cs)
  | none => (none, cs)

def withValue (binding : List Char) (value : Option (List Char)) : List Char :=
  match value with
  | some v => binding ++ " = ".toList ++ v
  | none => binding

/-- The binding of an exported variable. -/
def exportedEntry (name : List Char) (value : Option (List Char)) : List Char :=
  if name = "className".toList then
    "class: className = ".toList ++ value.getD "undefined".toList
  else if name = "ref".toList then "ref = $bindable(null)".toList
  else withValue name value

/-- The binding of a variable exported under another name. -/
def aliasedEntry (name exported : List Char) (value : Option (List Char)) : List Char :=
  let names := exported ++ ": ".toList ++ name
  if exported = "ref".toList then names ++ " = $bindable(null)".toList else withValue names value

def exportedVariable : Rule (List Char) := fun previous cs => do
  guard (atLineStart previous)
  let rest ← afterBlanks? (← after? "export".toList (cs.dropWhile isIndent))
  let rest ← afterBlanks? (← after? "let".toList rest)
  let (name, rest) ← wordRun? rest
  let (value, rest) := initialValue (skipType rest)
  return (exportedEntry name value, skipStatementEnd rest)

/-- The rest of a text behind blanks with a line feed, after which only indentation follows. -/
def afterLineBreak? (cs : List Char) : Option (List Char) :=
  let blanks := cs.takeWhile isBlank
  if blanks.contains '\n' && (blanks.reverse.takeWhile (· ≠ '\n')).all isIndent then
    some (cs.dropWhile isBlank)
  else none

/-- Recognizes a variable and, on the next line, its export under another name. -/
def aliasedVariable : Rule (List Char) := fun previous cs => do
  guard (atLineStart previous)
  let rest ← afterBlanks? (← after? "let".toList (cs.dropWhile isIndent))
  let (name, rest) ← wordRun? rest
  let (value, rest) := initialValue (skipType rest)
  let rest ← afterLineBreak? (← after? [';'] rest)
  let rest ← afterWord? "\x7b" (← after? "export".toList rest)
  let rest ← afterBlanks? (← after? name (rest.dropWhile isBlank))
  let rest ← afterBlanks? (← after? "as".toList rest)
  let (exported, rest) ← wordRun? rest
  let rest ← afterWord? "\x7d" rest
  return (aliasedEntry name exported value, skipStatementEnd rest)

/-- All exported variables of a script, in the order they start. -/
def exportsOf (script : List Char) : List (Found (List Char)) :=
  (found aliasedVariable script ++ found exportedVariable script).mergeSort
    fun a b => decide (a.start ≤ b.start)

/-- Cuts pieces out of a text, the last one first. -/
def cutOut (pieces : List (Found (List Char))) (script : List Char) : List Char :=
  pieces.foldr (fun piece text => text.take piece.start ++ text.drop piece.stop) script

def entryName (entry : List Char) : List Char :=
  stripChars ((entry.takeWhile (· ≠ ':')).takeWhile (· ≠ '='))

def propsPattern (entries : List (List Char)) (isTyped : Bool) : List Char :=
  let children :=
    if (entries.map entryName).contains "children".toList then [] else ["children".toList]
  let entries := entries ++ children ++ ["...restProps".toList]
  "  let \x7b\n".toList ++ joinChars ",\n".toList (entries.map ("    ".toList ++ ·)) ++ "\n  \x7d".toList
    ++ (if isTyped then ": Props".toList else []) ++ " = $props();\n".toList

/-- Replaces exported variables by one pattern where the first of them stood. -/
def upgradeExports (script : List Char) (isTyped : Bool) : List Char :=
  match exportsOf script with
  | [] => script
  | first :: more =>
    let kept := cutOut (first :: more) script
    kept.take first.start ++ propsPattern ((first :: more).map (·.value)) isTyped
      ++ kept.drop first.start

/-! ## The rest of the script -/

/-- Recognizes the older name of the type of props. -/
def legacyPropsType : Rule (List Char) := fun _ cs => do
  let rest ← after? "$$Props".toList cs
  guard (!rest.head?.any isWord)
  return ("Props".toList, rest)

/-- Recognizes a reactive assignment. -/
def reactiveAssignment : Rule (List Char) := fun _ cs => do
  let rest ← after? "$:".toList cs
  let (name, rest) ← wordRun? (rest.dropWhile isBlank)
  let (value, rest) := initialValue rest
  let rest ← after? [';'] rest
  return ("let ".toList ++ name ++ " = $derived(".toList ++ (← value) ++ ");".toList, rest)

/-- Recognizes the start of a lifecycle call. -/
def lifecycleCall : Rule (List Char) := fun previous cs => do
  guard (!previous.any isWord)
  let rest ← after? "onMount".toList cs <|> after? "afterUpdate".toList cs
  let rest ← ["(", "(", ")", "=>", "\x7b"].foldlM (fun rest word => afterWord? word rest) rest
  return ("$effect(() => \x7b".toList, rest)

/-- Functions that runes replace. -/
def lifecycleNames : List String := ["onMount", "afterUpdate", "beforeUpdate", "onDestroy"]

/-- Recognizes an import from the framework and removes the functions that runes replace. -/
def frameworkImport : Rule (List Char) := fun previous cs => do
  guard (atLineStart previous)
  let rest ← afterWord? "\x7b" (← after? "import".toList (cs.dropWhile isIndent))
  let (inside, rest) ← cut? ['\x7d'] rest
  let rest := (← afterWord? "from" rest).dropWhile isBlank
  let isQuote (c : Char) : Bool := c == '"' || c == '\''
  guard (rest.head?.any isQuote)
  let rest ← after? "svelte".toList (rest.drop 1)
  guard (rest.head?.any isQuote)
  let names := ((splitChar ',' inside).map stripChars).filter (· ≠ [])
  let kept := names.filter fun name => !lifecycleNames.contains (String.ofList name)
  let text :=
    if kept = [] then []
    else "  import \x7b ".toList ++ joinChars ", ".toList kept ++ " \x7d from \"svelte\";\n".toList
  return (text, skipStatementEnd (rest.drop 1))

def attributesImport : List Char :=
  "\n  import type \x7b HTMLAttributes \x7d from \"svelte/elements\";".toList

/-- Upgrades the body of a script by its text alone. -/
def upgradeScript (script : List Char) (typescript : Bool) : List Char :=
  let isTyped := typescript
    && (recognizes legacyPropsType script || occurs "interface Props".toList script)
  let script := upgradeExports script isTyped
  let script := substitute legacyPropsType script
  let script := substitute reactiveAssignment script
  let script := substitute lifecycleCall script
  let script := substitute frameworkImport script
  if typescript && !occurs "svelte/elements".toList script then attributesImport ++ script
  else script

/-! ## Markup -/

def slotElement : Rule (List Char) := fun _ cs => do
  let rest ← (after? "<slot".toList cs).bind (afterWord? "/>")
  return ("\x7b@render children?.()\x7d".toList, rest)

def eventDirective : Rule (List Char) := fun previous cs => do
  guard (!previous.any isWord)
  let (event, rest) ← wordRun? (← after? "on:".toList cs)
  let rest ← after? ['='] rest
  return ("on".toList ++ event ++ ['='], rest)

/-- Recognizes the older name of the props that are not bound. -/
def legacyRest : Rule (List Char) := fun _ cs => do
  let rest ← after? "$$restProps".toList cs <|> after? "$$props".toList cs
  guard (!rest.head?.any isWord)
  return ("restProps".toList, rest)

def upgradeMarkup (markup : List Char) : List Char :=
  substitute legacyRest (substitute eventDirective (substitute slotElement markup))

def upgrade (code : String) (declarations : Option (List Generate.Declaration)) : String :=
  let cs := code.toList
  String.ofList <|
    match cutHit? Repair.scriptBlock cs with
    | none => upgradeMarkup cs
    | some (front, (opening, body, closing), back) =>
      let typescript := occurs "lang=\"ts\"".toList opening
      let script :=
        match declarations with
        | some ds => (Generate.Svelte.script ds true typescript).toList
        | none => opening ++ upgradeScript body typescript ++ closing
      -- Text in front of the first script is left alone.
      front ++ script ++ upgradeMarkup back

end Recast.Runes
