import Recast.Plugin.Basic

/-!
# Scripted hooks

Hooks described as data, for plugins that need no code of their own.
-/

set_option autoImplicit false

namespace Recast.Plugin

/-- What a scripted hook can do in any phase. -/
inductive CommonAction where
  | keep
  | fail (message : String)
  | warn (message : String)
  | dropDeclarations

inductive TextAction where
  | common (action : CommonAction)
  | append (text : String)
  | prepend (text : String)
  | replace (old new : String)
  /-- A comment in front that names the component, the target, and whether markup was made up. -/
  | banner
  /-- A comment in front with the kinds of declaration. -/
  | kinds (nameOf : Generate.DeclarationKind → String)

inductive SourceAction where
  | common (action : CommonAction)
  | clear
  /-- Takes all components off the list and fails. -/
  | clearThenFail (message : String)
  | remove (component : String)
  | rename (component name : String)
  | setRoot (component : String) (nodes : Except Report (List Markup.Node))
  | dropMetadata (component : String)
  | makePrimary (component : String)
  | addProp (component : String) (prop : Except Report Property)

def CommonAction.run {α : Type} (a : CommonAction) (value : α) (c : Context) : HookRun α :=
  match a with
  | keep => ⟨value, .ok none, c⟩
  | fail message => ⟨value, .error message, c⟩
  | warn message => ⟨value, .ok none, c.warn message⟩
  | dropDeclarations => ⟨value, .ok none, { c with declarations := none }⟩

def comment (text : String) : String := "<!-- " ++ text ++ " -->\n"

def bannerText (c : Context) : String :=
  comment (c.targetComponent.getD "None" ++ " " ++ c.target.name ++ " "
    ++ (if c.usedFallback then "True" else "False"))

def TextAction.run (a : TextAction) : Hook String := fun value c =>
  let deliver (s : String) : HookRun String := ⟨value, .ok (some s), c⟩
  match a with
  | common action => action.run value c
  | append text => deliver (value ++ text)
  | prepend text => deliver (text ++ value)
  | replace old new => deliver (Text.replace old new value)
  | banner => deliver (bannerText c ++ value)
  | kinds nameOf =>
    deliver (comment (Text.join "," ((c.declarations.getD []).map fun d => nameOf d.kind)) ++ value)

def SourceAction.run (a : SourceAction) : Hook ParsedSource := fun value c =>
  let deliver (s : ParsedSource) : HookRun ParsedSource := ⟨s, .ok (some s), c⟩
  match a with
  | common action => action.run value c
  | clear => deliver value.clear
  | clearThenFail message =>
    ⟨{ value.clear with warnings := value.warnings ++ ["lost"] }, .error message, c⟩
  | remove component => deliver (value.remove component)
  | rename component name => deliver (value.update component fun k => { k with name })
  | setRoot component nodes =>
    match nodes with
    | .ok root => deliver (value.update component fun k => { k with root })
    | .error e => ⟨value, .error e.message, c⟩
  | dropMetadata component => deliver (value.update component fun k => { k with metadata := none })
  | makePrimary component => deliver (value.makePrimary component)
  | addProp component prop =>
    match prop with
    | .ok p => deliver (value.update component fun k => { k with props := k.props ++ [p] })
    | .error e => ⟨value, .error e.message, c⟩

end Recast.Plugin
