import Recast.Component.Edit
import Recast.Generate.Declaration
import Recast.Options.Basic

/-!
# Plugins

A plugin takes part in a conversion through hooks, one per phase. A hook may change the value it is
given even if it then fails or delivers nothing, so what it leaves of its argument is part of its
result.
-/

set_option autoImplicit false

namespace Recast

inductive Phase where
  | preParse
  | postParse
  | preGenerate
  | postGenerate
  deriving DecidableEq, Repr

namespace Phase

def name : Phase → String
  | preParse => "pre_parse"
  | postParse => "post_parse"
  | preGenerate => "pre_generate"
  | postGenerate => "post_generate"

def all : List Phase := [preParse, postParse, preGenerate, postGenerate]

end Phase

namespace Plugin

/-- What the hooks of one conversion share. -/
structure Context where
  target : Target
  options : Options
  targetComponent : Option String := none
  /-- The declarations of the component being generated, once there are any. -/
  declarations : Option (List Generate.Declaration) := none
  usedFallback : Bool := false
  warnings : List String := []

def Context.warn (c : Context) (message : String) : Context :=
  { c with warnings := c.warnings ++ [message] }

/-- What running a hook leads to. -/
structure HookRun (α : Type) where
  /-- What the hook left of its argument. -/
  argument : α
  /-- The value it delivered, if any, or the message of its failure. -/
  outcome : Except String (Option α)
  context : Context

abbrev Hook (α : Type) := α → Context → HookRun α

/-- The place of a plugin for a hook. It may hold something that cannot be called. -/
inductive Slot (α : Type) where
  | empty
  | unusable
  | hook (run : Hook α)

namespace Slot

variable {α : Type}

def isUnusable : Slot α → Bool
  | unusable => true
  | _ => false

def hook? : Slot α → Option (Hook α)
  | hook run => some run
  | _ => none

end Slot

/-- A hook that delivers a value and leaves its argument and the context alone. -/
def deliver {α : Type} (f : α → Context → α) : Slot α :=
  .hook fun value context => ⟨value, .ok (some (f value context)), context⟩

end Plugin

/-- A plugin as it is declared. Nothing about it has been checked. -/
structure Plugin where
  /-- What kind of plugin it is, for display. -/
  kind : String
  name : String := ""
  /-- Plugins of lower order run first. Only whole numbers are accepted. -/
  order : Value := .int 50
  /-- The facts about components that it reads and writes. -/
  reads : List String := []
  writes : List String := []
  appliesTo : Plugin.Context → Bool := fun _ => true
  preParse : Plugin.Slot String := .empty
  postParse : Plugin.Slot ParsedSource := .empty
  preGenerate : Plugin.Slot ParsedSource := .empty
  postGenerate : Plugin.Slot String := .empty

namespace Plugin

def plainName (p : Plugin) : String := Text.strip p.name

def orderNumber (p : Plugin) : Int :=
  match p.order with
  | .int n => n
  | _ => 0

/-- Whether there is something that cannot be called in the place of a hook. -/
def isUnusableAt (p : Plugin) : Phase → Bool
  | .preParse => p.preParse.isUnusable
  | .postParse => p.postParse.isUnusable
  | .preGenerate => p.preGenerate.isUnusable
  | .postGenerate => p.postGenerate.isUnusable

def hasHook (p : Plugin) : Phase → Bool
  | .preParse => p.preParse.hook?.isSome
  | .postParse => p.postParse.hook?.isSome
  | .preGenerate => p.preGenerate.hook?.isSome
  | .postGenerate => p.postGenerate.hook?.isSome

def hookNames (p : Plugin) : List String := (Phase.all.filter p.hasHook).map Phase.name

def describe (p : Plugin) : String :=
  "<" ++ p.kind ++ " name=" ++ Text.quoted p.name ++ " order=" ++ p.order.display ++ ">"

/-- Texts in ascending order, each once. -/
def sortedSet (texts : List String) : List String :=
  texts.eraseDups.mergeSort (· ≤ ·)

def invalid (message : String) (hint : Option String := none) : Report :=
  { kind := .pluginConfig, message, hint }

/-- Refuses facts that do not exist. -/
def checkFields (name role : String) (fields : List String) : Except Report Unit :=
  match sortedSet (fields.filter (!Metadata.fieldNames.contains ·)) with
  | [] => .ok ()
  | unknown => .error (invalid
      ("Plugin '" ++ name ++ "' " ++ role ++ " unknown metadata fields: " ++ Text.join ", " unknown)
      (some ("Known fields: " ++ Text.join ", " Metadata.fieldNames)))

/-- Refuses plugins without a name, without a whole number as order, with facts that do not exist,
or with something that cannot be called in the place of a hook. -/
def check (p : Plugin) : Except Report Unit := do
  let name := p.plainName
  if name = "" then throw (invalid "Plugin name must be provided")
  match p.order with
  | .int _ => pure ()
  | other => throw (invalid
      ("Plugin '" ++ name ++ "' order must be an integer, got " ++ other.inspect))
  checkFields name "reads" p.reads
  checkFields name "writes" p.writes
  match Phase.all.find? p.isUnusableAt with
  | some phase => throw (invalid ("Plugin '" ++ name ++ "' hook " ++ phase.name ++ " is not callable"))
  | none => pure ()

end Plugin

end Recast
