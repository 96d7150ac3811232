import Recast.Plugin.Basic

/-!
# Pipelines

Plugins in the order they run. A failing hook does not stop a phase: its failure becomes a warning,
and the value from before the hook is kept.
-/

set_option autoImplicit false

namespace Recast.Plugin

/-- Checked plugins in the order they run. -/
structure Pipeline where
  plugins : List Plugin

namespace Pipeline

/-- Plugins by ascending order, those of equal order as given. -/
def sort (plugins : List Plugin) : List Plugin :=
  plugins.mergeSort fun a b => decide (a.orderNumber ≤ b.orderNumber)

def make (plugins : List Plugin) : Except Report Pipeline := do
  plugins.forM Plugin.check
  return ⟨sort plugins⟩

def names (p : Pipeline) : List String := p.plugins.map (·.name)

def add (p : Pipeline) (more : List Plugin) : Except Report Pipeline := make (p.plugins ++ more)

end Pipeline

variable {α : Type}

def failureWarning (plugin : Plugin) (phase : Phase) (message : String) : String :=
  "Plugin " ++ plugin.name ++ " " ++ phase.name ++ " error: " ++ message

def runHook (phase : Phase) (slot : Plugin → Slot α) (state : α × Context) (plugin : Plugin) :
    α × Context :=
  match (slot plugin).hook? with
  | none => state
  | some hook =>
    if !plugin.appliesTo state.2 then state
    else
      let run := hook state.1 state.2
      match run.outcome with
      | .error message => (state.1, run.context.warn (failureWarning plugin phase message))
      | .ok none => (run.argument, run.context)
      | .ok (some value) => (value, run.context)

/-- Runs the hooks of a phase, each on what the one before left. -/
def runHooks (phase : Phase) (slot : Plugin → Slot α) (plugins : List Plugin) (value : α)
    (context : Context) : α × Context :=
  plugins.foldl (runHook phase slot) (value, context)

namespace Pipeline

def runPreParse (p : Pipeline) (source : String) (c : Context) : String × Context :=
  runHooks .preParse Plugin.preParse p.plugins source c

def runPostParse (p : Pipeline) (source : ParsedSource) (c : Context) : ParsedSource × Context :=
  runHooks .postParse Plugin.postParse p.plugins source c

def runPreGenerate (p : Pipeline) (source : ParsedSource) (c : Context) : ParsedSource × Context :=
  runHooks .preGenerate Plugin.preGenerate p.plugins source c

def runPostGenerate (p : Pipeline) (code : String) (c : Context) : String × Context :=
  runHooks .postGenerate Plugin.postGenerate p.plugins code c

end Pipeline

end Recast.Plugin
