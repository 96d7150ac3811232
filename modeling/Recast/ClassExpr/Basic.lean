import Recast.ClassExpr.Scan
import Recast.Component.Basic
import Recast.Target

/-!
# Class expressions

A source class expression looks like `cn(buttonVariants({ variant, className }))`. For a target the
variant arguments are resolved to the target's way of naming props, the class that callers pass is
moved out of the variant call into the merging call, and quotes are made safe for attributes.
-/

set_option autoImplicit false

namespace Recast.ClassExpr

open Recast.Text

/-! ## Props access and names -/

/-- Removes `props.` wherever a word starts there. `previous` is the character in front. -/
def dropPropsFrom (skip : Nat) (previous : Option Char) : List Char → List Char
  | [] => []
  | c :: cs =>
    match skip with
    | n + 1 => dropPropsFrom n (some c) cs
    | 0 =>
      if !previous.any isWord && (after? "props.".toList (c :: cs)).isSome then
        dropPropsFrom 5 (some c) cs
      else c :: dropPropsFrom 0 (some c) cs

def stripPropsAccessChars (cs : List Char) : List Char := dropPropsFrom 0 none cs

def stripPropsAccess (code : String) : String :=
  String.ofList (stripPropsAccessChars code.toList)

/-- Replaces whole names by others. `previous` is the character in front, and names are tried in the
given order. -/
def renameFrom (isJoined runsOn : Char → Bool) (renames : List (List Char × List Char))
    (skip : Nat) (previous : Option Char) : List Char → List Char
  | [] => []
  | c :: cs =>
    match skip with
    | n + 1 => renameFrom isJoined runsOn renames n (some c) cs
    | 0 =>
      let found := renames.find? fun entry =>
        -- A name that runs on is no match.
        entry.1 ≠ [] && !previous.any isJoined &&
          (after? entry.1 (c :: cs)).any fun rest => !rest.head?.any runsOn
      match found with
      | some entry =>
        entry.2 ++ renameFrom isJoined runsOn renames (entry.1.length - 1) (some c) cs
      | none => c :: renameFrom isJoined runsOn renames 0 (some c) cs

/-- Replaces the bare class prop by the prop of the Vue component. -/
def classToProps (cs : List Char) : List Char :=
  renameFrom joinsName isWord [("className".toList, "props.class".toList)] 0 none cs

def longestFirst (renames : Assoc String) : List (List Char × List Char) :=
  (renames.mergeSort fun a b => decide (b.1.toList.length ≤ a.1.toList.length)).map fun entry =>
    (entry.1.toList, entry.2.toList)

/-- Renames in code and leaves literals alone. -/
def renamePiece (renames : List (List Char × List Char)) : Piece → List Char
  | .literal t => t
  | .code t => renameFrom joinsName continuesName renames 0 none t

/-- Replaces bare identifiers. String literals and members are left alone. -/
def renameIdentifiers (code : String) (renames : Assoc String) : String :=
  if renames.isEmpty then code
  else String.ofList ((pieces code.toList).flatMap (renamePiece (longestFirst renames)))

/-! ## Quotes -/

/-- A double-quoted literal in single quotes, unless it holds one. -/
def singleQuoted : Piece → List Char
  | .literal t =>
    if t.head? == some '"' && !t.contains '\'' then '\'' :: (t.drop 1).dropLast ++ ['\''] else t
  | .code t => t

def quoteReference (c : Char) : List Char := if c = '"' then "&quot;".toList else [c]

/-- Spells an expression for an attribute in double quotes. -/
def attributeSafeChars (cs : List Char) : List Char :=
  ((pieces cs).flatMap singleQuoted).flatMap quoteReference

def attributeSafeQuotes (code : String) : String :=
  String.ofList (attributeSafeChars code.toList)

/-! ## Variant calls -/

def isIdentifier : List Char → Bool
  | [] => false
  | c :: cs => (c.isAlpha || c == '_' || c == '$') && cs.all continuesName

/-- Key and value of an argument; a bare key is its own value. -/
def argumentParts (entry : List Char) : List Char × List Char :=
  let key := stripChars (entry.takeWhile (· ≠ ':'))
  let value := stripChars ((entry.dropWhile (· ≠ ':')).drop 1)
  (key, if value = [] then key else value)

def isClassArgument (key : List Char) : Bool :=
  key == "className".toList || key == "class".toList

/-- An argument with its value resolved in the target's namespace. -/
def resolvedArgument (space key value : List Char) : List Char :=
  if !isIdentifier value then key ++ ": ".toList ++ value
  else if space ≠ [] ∨ key ≠ value then key ++ ": ".toList ++ space ++ value
  else key

/-- A variant call with resolved arguments, and whether a class argument was dropped. -/
def resolvedCall (name space : List Char) (arguments : List Char) : List Char × Bool :=
  let entries := (splitTopLevel ',' arguments).map argumentParts
  let kept := entries.filter fun e => !isClassArgument e.1
  let args := kept.map fun e => resolvedArgument space e.1 e.2
  let call :=
    if args = [] then name ++ "()".toList
    else name ++ "(\x7b ".toList ++ joinChars ", ".toList args ++ " \x7d)".toList
  (call, entries.any fun e => isClassArgument e.1)

def objectBody? (cs : List Char) : Option (List Char) :=
  let t := stripChars cs
  if t.head? == some '\x7b' && t.getLast? == some '\x7d' then some (t.drop 1).dropLast else none

structure Span where
  start : Nat
  stop : Nat
  deriving DecidableEq, Repr

/-- Resolves the variant calls of a text from a position on, at most `n` of them. Gives the new text
and the spans of the calls that lost a class argument. -/
def resolveCallsFrom (name space : List Char) : Nat → Nat → List Char → List Char × List Span
  | 0, _, code => (code, [])
  | n + 1, position, code =>
    match findCall? name code position with
    | none => (code, [])
    | some start =>
      let openAt := openAfter code start
      match closeOf? code openAt with
      | none => (code, [])
      | some closeAt =>
        match objectBody? ((code.take closeAt).drop (openAt + 1)) with
        -- A call without an object is passed over with all that it holds.
        | none => resolveCallsFrom name space n closeAt code
        | some body =>
          let (call, hadClass) := resolvedCall name space body
          let stop := start + call.length
          let code := code.take start ++ call ++ code.drop (closeAt + 1)
          let (result, spans) := resolveCallsFrom name space n stop code
          (result, if hadClass then ⟨start, stop⟩ :: spans else spans)

def resolveCalls (name space code : List Char) : List Char × List Span :=
  -- Each step passes at least one character, so the length of the text bounds their number.
  resolveCallsFrom name space (code.length + 1) 0 code

/-! ## The merging call -/

def mergeName : List Char := "cn".toList

/-- The innermost merging call around a span, as the places of its parentheses, among the calls at
or after a position. -/
def enclosingMergeFrom (code : List Char) (span : Span) : Nat → Nat → Option (Nat × Nat) →
    Option (Nat × Nat)
  | 0, _, best => best
  | n + 1, position, best =>
    match findCall? mergeName code position with
    | none => best
    | some call =>
      if span.start < call then best
      else
        let openAt := openAfter code call
        let best :=
          match closeOf? code openAt with
          | some closeAt => if span.stop ≤ closeAt then some (openAt, closeAt) else best
          | none => best
        enclosingMergeFrom code span n (openAt + 1) best

def enclosingMerge? (code : List Char) (span : Span) : Option (Nat × Nat) :=
  enclosingMergeFrom code span (code.length + 1) 0 none

/-- Passes a class to the merging call around a span, which is put there if there is none. -/
def appendClass (code : List Char) (span : Span) (classRef : List Char) : List Char :=
  match enclosingMerge? code span with
  | none =>
    code.take span.start ++ mergeName ++ ['('] ++ (code.take span.stop).drop span.start
      ++ ", ".toList ++ classRef ++ [')'] ++ code.drop span.stop
  | some (openAt, closeAt) =>
    if (splitTopLevel ',' ((code.take closeAt).drop (openAt + 1))).contains classRef then code
    else code.take closeAt ++ ", ".toList ++ classRef ++ code.drop closeAt

/-! ## The whole expression -/

/-- Adapts a class expression to a target, given the variant configuration it may call. -/
def adapt (code : String) (target : Target) (variantName : Option String) : String :=
  let code := stripChars code.toList
  let code := if target = .vue then replaceChars "props.className".toList "className".toList code
    else code
  let code := stripPropsAccessChars code
  let space := if target = .vue then "props.".toList else []
  let code :=
    match variantName.filter (· ≠ "") with
    | none => code
    | some name =>
      let (code, spans) := resolveCalls name.toList space code
      spans.reverse.foldl (fun code span => appendClass code span "className".toList) code
  String.ofList (if target = .vue then attributeSafeChars (classToProps code) else code)

def usesMerge (code : String) : Bool := (findCall? mergeName code.toList 0).isSome

/-- The class expression of a component whose markup is not known. -/
def fallback (m : Metadata) : String :=
  match m.variant with
  | some config =>
    let call :=
      match join ", " config.axes with
      | "" => config.name ++ "()"
      | axes => config.name ++ "(\x7b " ++ axes ++ " \x7d)"
    "cn(" ++ call ++ ", className)"
  | none =>
    match m.baseClasses.filter (· ≠ "") with
    | some classes => "cn(\"" ++ classes ++ "\", className)"
    | none => if m.usesClassMerge then "cn(className)" else "className"

end Recast.ClassExpr
