import Recast.Plugin.Builtin
import Recast.Plugin.Pipeline

/-!
# The plugin registry

Plugins by name, and which of them every conversion uses. Names are registered without blanks around
them and once only.
-/

set_option autoImplicit false

namespace Recast.Plugin

structure Registry where
  /-- Plugins by name, in the order they were registered. -/
  plugins : Assoc Plugin := []
  /-- The plugins that conversions use by default, with the targets they are for, if not all. -/
  defaults : Assoc (Option (List Target)) := []

namespace Registry

def failure (message : String) : Report := { kind := .pluginRegistry, message }

/-- Registers a plugin. With `targets` it is a default for these only, where none mean all. -/
def register (r : Registry) (p : Plugin) (isDefault : Bool := false)
    (targets : List String := []) : Registry × Except Report Unit :=
  match p.check with
  | .error e => (r, .error e)
  | .ok () =>
    let name := p.plainName
    if r.plugins.has name then (r, .error (failure ("Plugin '" ++ name ++ "' already registered")))
    else
      let r := { r with plugins := r.plugins.put name p }
      if !isDefault then (r, .ok ())
      else if targets.isEmpty then ({ r with defaults := r.defaults.put name none }, .ok ())
      else
        match targets.mapM Target.parse with
        -- The plugin stays registered, but not as a default.
        | .error e => (r, .error e)
        | .ok ts => ({ r with defaults := r.defaults.put name (some ts) }, .ok ())

/-- The plugin of a name, with or without blanks around it. -/
def get (r : Registry) (name : String) : Except Report Plugin :=
  let name := Text.strip name
  match r.plugins.get? name with
  | some p => .ok p
  | none => .error (failure ("Plugin '" ++ name ++ "' is not registered"))

def available (r : Registry) : List String := r.plugins.keys.mergeSort (· ≤ ·)

/-- The default plugins for a target, in the order they were registered. -/
def defaultsFor (r : Registry) (target : Target) : List Plugin :=
  (r.defaults.filter fun entry => entry.2.all (·.contains target)).filterMap fun entry =>
    r.plugins.get? entry.1

/-- A plugin offered from outside, under a name of its own, or the reason why it cannot be had. -/
structure EntryPoint where
  name : String
  plugin : Except String Plugin

/-- Registers the plugins offered from outside that are not registered yet. Gives the names of the
new ones. -/
def loadEntryPoints (r : Registry) : List EntryPoint → Registry × Except Report (List String)
  | [] => (r, .ok [])
  | entry :: rest =>
    match entry.plugin with
    | .error message =>
      (r, .error (failure ("Failed to load plugin " ++ entry.name ++ ": " ++ message)))
    | .ok p =>
      if r.plugins.has p.name then loadEntryPoints r rest
      else
        match r.register p with
        -- What was registered before a failure stays.
        | (r, .error e) => (r, .error e)
        | (r, .ok ()) =>
          let (r, names) := loadEntryPoints r rest
          (r, names.map (p.name :: ·))

def builtin : Registry :=
  let r := ({} : Registry).register metadataConsolidation true
  let r := r.1.register svelteRunes true ["svelte"]
  (r.1.register primitiveRepair true).1

/-! ## Sessions -/

inductive Step where
  | register (p : Plugin) (isDefault : Bool) (targets : List String)
  | clear
  /-- Keeps what is registered now for later. -/
  | snapshot
  /-- Goes back to what was kept, the oldest first. Without a snapshot of that number nothing happens. -/
  | restore (index : Nat)

/-- A registry in use, with the snapshots that were taken of it. -/
structure Session where
  registry : Registry := {}
  snapshots : List Registry := []

namespace Session

/-- Takes one step. A registration that fails is a step like any other. -/
def step (s : Session) : Step → Session
  | .register p isDefault targets => { s with registry := (s.registry.register p isDefault targets).1 }
  | .clear => { s with registry := {} }
  | .snapshot => { s with snapshots := s.snapshots ++ [s.registry] }
  | .restore index => { s with registry := s.snapshots[index]?.getD s.registry }

def steps (s : Session) (list : List Step) : Session := list.foldl step s

def run (list : List Step) : Session := steps {} list

end Session

end Registry

end Recast.Plugin
