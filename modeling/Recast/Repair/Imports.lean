import Recast.Catalog.Icons
import Recast.Text.Substitution

/-!
# Cleaning imports

Removes what is left of the source framework from generated scripts: imports and names of wrapped
primitives, unused types, packages and paths with another name in the target.
-/

set_option autoImplicit false

namespace Recast.Repair

open Recast.Text

def isPlainQuote (c : Char) : Bool := c == '"' || c == '\''

/-- A text in quotes of any kind that holds no quotes, with its first quote, and the rest. -/
def quotedText? : List Char → Option (Char × List Char × List Char)
  | [] => none
  | q :: cs =>
    let isInside (c : Char) : Bool := !isPlainQuote c
    let text := cs.takeWhile isInside
    if isPlainQuote q && text ≠ [] && (cs.dropWhile isInside).head?.isSome then
      some (q, text, (cs.dropWhile isInside).drop 1)
    else none

/-- A name that stands for a package of primitives, and the rest. -/
def primitivesName? (cs : List Char) : Option (List Char × List Char) :=
  (wordRun? cs).filter fun run =>
    ["Primitive", "Primitives"].any fun ending =>
      (after? ending.toList.reverse run.1.reverse).any (· ≠ [])

/-- The rest of a line behind its indentation and a keyword. -/
def lineKeyword? (keyword : String) (previous : Option Char) (cs : List Char) :
    Option (List Char) :=
  if atLineStart previous then after? keyword.toList (cs.dropWhile isIndent) else none

def primitivesImport : Rule (List Char) := fun previous cs => do
  let rest ← afterBlanks? (← lineKeyword? "import" previous cs)
  let rest ← afterBlanks? (← after? ['*'] rest)
  let rest ← afterBlanks? (← after? "as".toList rest)
  let (_, rest) ← primitivesName? rest
  let rest ← afterBlanks? rest
  let rest ← afterBlanks? (← after? "from".toList rest)
  let (_, source, rest) ← quotedText? rest
  guard ((after? "@radix-ui/".toList source).any (· ≠ []))
  return ([], skipStatementEnd rest)

/-- Recognizes a name given to a part of a primitive. -/
def primitiveAlias : Rule (List Char) := fun previous cs => do
  let rest ← afterBlanks? (← lineKeyword? "const" previous cs)
  let (_, rest) ← wordRun? rest
  let rest ← afterWord? "=" rest
  let (_, rest) ← primitivesName? (rest.dropWhile isBlank)
  let (_, rest) ← wordRun? (← after? ['.'] rest)
  return ([], skipStatementEnd rest)

def variantPropsUse : Rule Unit := fun previous cs => do
  guard (!previous.any isWord)
  let rest ← (after? "VariantProps".toList cs).bind (afterWord? "<")
  return ((), rest)

/-- The parts of a list between commas, trimmed, without empty ones. -/
def listed (cs : List Char) : List (List Char) :=
  ((splitChar ',' cs).map stripChars).filter (· ≠ [])

/-- The part of a text that was read when `rest` is left. -/
def readPart (cs rest : List Char) : List Char := cs.take (cs.length - rest.length)

/-- Recognizes an import of names and removes the type of variant props from it, and the import if
nothing is left. -/
def variantPropsImport : Rule (List Char) := fun previous cs => do
  let afterImport ← afterBlanks? (← lineKeyword? "import" previous cs)
  let braces := ((after? "type".toList afterImport).bind afterBlanks?).getD afterImport
  let (inside, afterNames) ← cut? ['\x7d'] (← after? ['\x7b'] braces)
  let (_, _, afterSource) ← quotedText? ((← afterWord? "from" afterNames).dropWhile isBlank)
  let rest := skipStatementEnd afterSource
  let names := listed inside
  let kept := names.filter fun name =>
    name ≠ "VariantProps".toList ∧ name ≠ "type VariantProps".toList
  let text :=
    if kept.length = names.length then readPart cs rest
    else if kept = [] then []
    else readPart cs braces ++ "\x7b ".toList ++ joinChars ", ".toList kept ++ " \x7d".toList
      ++ readPart afterNames rest
  return (text, rest)

/-- Removes the type of variant props from imports if nothing uses it. -/
def dropVariantProps (cs : List Char) : List Char :=
  if recognizes variantPropsUse cs then cs else substitute variantPropsImport cs

/-- Recognizes the source of an import and replaces icon packages by their counterparts. -/
def iconSource (target : Target) : Rule (List Char) := fun previous cs => do
  guard (!previous.any isWord)
  let quotedPart := (← after? "from".toList cs).dropWhile isBlank
  let (quote, source, rest) ← quotedText? quotedPart
  guard ((readPart quotedPart rest).getLast? = some quote)
  let text :=
    match Catalog.iconPackageFor? (String.ofList source) target with
    | none => readPart cs rest
    | some package => readPart cs quotedPart ++ quote :: package.toList ++ [quote]
  return (text, rest)

/-- Recognizes the path under which the source framework keeps helpers. -/
def helperPath : Rule (List Char) := fun _ cs => do
  let quote ← cs.head?
  guard (isPlainQuote quote)
  let rest ← after? "@/lib/".toList (cs.drop 1)
  return (quote :: "$lib/".toList, rest)

def literally (old new : String) : Rule (List Char) := fun _ cs =>
  (after? old.toList cs).map fun rest => (new.toList, rest)

/-- A cleaned text and how often something was changed. -/
structure Cleaned where
  text : List Char
  count : Nat
  deriving DecidableEq, Repr

def Cleaned.byRule (rule : Rule (List Char)) (c : Cleaned) : Cleaned :=
  ⟨substitute rule c.text, c.count + hits rule c.text⟩

/-- Applies a change and counts it once if it changes anything. -/
def Cleaned.byChange (f : List Char → List Char) (c : Cleaned) : Cleaned :=
  ⟨f c.text, c.count + if f c.text = c.text then 0 else 1⟩

/-- The last step of cleaning, which depends on the target. -/
def targetRules (target : Target) (runes : Bool) : List (Rule (List Char)) :=
  match target with
  | .svelte =>
    [helperPath] ++ (if runes then [] else [literally "\x7b...$$props\x7d" "\x7b...$$restProps\x7d"])
  | .vue => [literally "v-bind=\"$props\"" "v-bind=\"$attrs\""]

def cleanImports (text : List Char) (target : Target) (runes : Bool := true) : Cleaned :=
  let cleaned := ((Cleaned.mk text 0).byRule primitivesImport).byRule primitiveAlias
  let cleaned := (cleaned.byChange dropVariantProps).byChange (substitute (iconSource target))
  (targetRules target runes).foldl (fun c rule => c.byRule rule) cleaned

end Recast.Repair
