import Recast.Convert

/-!
# The default plugins

A conversion that is set up without plugins of its own runs the same few for each target. Only two of
their hooks do anything: metadata is consolidated behind the reader, and the code is upgraded and
repaired behind the generator.
-/

set_option autoImplicit false

namespace Recast.Plugin

/-- The plugins that conversions for a target use by default. -/
def builtinPlugins : Target → List Plugin
  | .svelte => [metadataConsolidation, svelteRunes, primitiveRepair]
  | .vue => [metadataConsolidation, primitiveRepair]

theorem check_eq_ok {p : Plugin} (h : p.check.toBool = true) : p.check = .ok () := by
  cases found : p.check with
  | ok u => rfl
  | error e =>
    rw [found] at h
    exact absurd h Bool.false_ne_true

theorem check_metadataConsolidation : metadataConsolidation.check = .ok () :=
  check_eq_ok (by decide +kernel)

theorem check_svelteRunes : svelteRunes.check = .ok () := check_eq_ok (by decide +kernel)

theorem check_primitiveRepair : primitiveRepair.check = .ok () := check_eq_ok (by decide +kernel)

theorem Registry.register_metadataConsolidation : ({} : Registry).register metadataConsolidation true =
    ({ plugins := [("metadata-consolidation", metadataConsolidation)]
       defaults := [("metadata-consolidation", none)] }, .ok ()) := by
  have name : metadataConsolidation.plainName = "metadata-consolidation" := by decide +kernel
  rw [Registry.register, check_metadataConsolidation, name]
  rfl

theorem defaultsFor_builtin (target : Target) :
    Registry.builtin.defaultsFor target = builtinPlugins target := by
  have name₂ : svelteRunes.plainName = "svelte5-runes" := by decide +kernel
  have name₃ : primitiveRepair.plainName = "primitive-repair" := by decide +kernel
  have second : ({ plugins := [("metadata-consolidation", metadataConsolidation)]
                   defaults := [("metadata-consolidation", none)] } : Registry).register
        svelteRunes true ["svelte"] =
      ({ plugins := [("metadata-consolidation", metadataConsolidation), ("svelte5-runes", svelteRunes)]
         defaults := [("metadata-consolidation", none), ("svelte5-runes", some [.svelte])] }, .ok ()) := by
    rw [Registry.register, check_svelteRunes, name₂]
    rfl
  rw [Registry.builtin, Registry.register_metadataConsolidation, second]
  simp only [Registry.register, check_primitiveRepair, name₃]
  cases target <;> rfl

theorem forM_check {plugins : List Plugin} (h : ∀ p ∈ plugins, p.check = .ok ()) :
    plugins.forM Plugin.check = .ok () := by
  induction plugins with
  | nil => rfl
  | cons p plugins ih =>
    have step : (p :: plugins).forM Plugin.check = p.check >>= fun _ => plugins.forM Plugin.check := rfl
    rw [step, h p (by simp)]
    exact ih fun q hq => h q (by simp [hq])

theorem make_builtin (target : Target) :
    Pipeline.make (builtinPlugins target) = .ok ⟨builtinPlugins target⟩ := by
  have sorted : Pipeline.sort (builtinPlugins target) = builtinPlugins target := by
    refine List.mergeSort_of_pairwise ?_
    cases target <;>
      simp [builtinPlugins, Plugin.orderNumber, metadataConsolidation, svelteRunes, primitiveRepair]
  have checked : ∀ p ∈ builtinPlugins target, p.check = .ok () := by
    cases target <;>
      simp [builtinPlugins, check_metadataConsolidation, check_svelteRunes, check_primitiveRepair]
  rw [Pipeline.make, forM_check checked, sorted]
  rfl

/-- A conversion with the default plugins. -/
structure UsesDefaults (c : Converter) : Prop where
  registry : c.registry = Registry.builtin
  plugins : c.plugins = none
  extraPlugins : c.extraPlugins = []

theorem UsesDefaults.pipelineFor {c : Converter} (defaults : UsesDefaults c) (o : Options) :
    c.pipelineFor o = .ok ⟨builtinPlugins o.target⟩ := by
  rw [Converter.pipelineFor, defaults.plugins, defaults.registry, defaults.extraPlugins,
    List.append_nil, Option.getD_none, defaultsFor_builtin, make_builtin]

/-! ## What their hooks do -/

section Hooks

variable (target : Target) (context : Context)

theorem runPreParse_builtin (source : String) :
    Pipeline.runPreParse ⟨builtinPlugins target⟩ source context = (source, context) := by
  cases target <;> rfl

theorem runPostParse_builtin (source : ParsedSource) :
    Pipeline.runPostParse ⟨builtinPlugins target⟩ source context = (consolidated source, context) := by
  cases target <;> rfl

theorem runPreGenerate_builtin (source : ParsedSource) :
    Pipeline.runPreGenerate ⟨builtinPlugins target⟩ source context = (source, context) := by
  cases target <;> rfl

theorem runHook_svelteRunes (code : String) :
    runHook .postGenerate Plugin.postGenerate (code, context) svelteRunes =
      (if context.runes then Runes.upgrade code context.declarations else code, context) := by
  cases runes : context.runes <;> simp [runHook, svelteRunes, deliver, Slot.hook?, runes]

theorem runPostGenerate_builtin (same : context.target = target) (code : String) :
    Pipeline.runPostGenerate ⟨builtinPlugins target⟩ code context =
      (repaired Catalog.primitiveTags
        (if context.runes then Runes.upgrade code context.declarations else code) context, context) := by
  subst same
  cases target : context.target with
  | svelte =>
    have steps : Pipeline.runPostGenerate ⟨builtinPlugins .svelte⟩ code context =
        runHook .postGenerate Plugin.postGenerate
          (runHook .postGenerate Plugin.postGenerate (code, context) svelteRunes) primitiveRepair := rfl
    rw [steps, runHook_svelteRunes]
    rfl
  | vue =>
    have older : context.runes = false := by simp [Context.runes, target]
    rw [older]
    rfl

end Hooks

/-! ## Up to the generator -/

/-- What is left to do once a source is read. -/
def preparedFrom (o : Options) (parsed : ParsedSource) : Prepared where
  source := consolidated parsed
  context := {
    target := o.target, options := o, targetComponent := o.targetComponent
    warnings := [] ++ parsed.warnings ++ parsed.errors }
  pipeline := ⟨builtinPlugins o.target⟩

theorem prepare_eq {c : Converter} (defaults : UsesDefaults c) (o : Options) (source : String)
    (path : Option String) :
    c.prepare o source path =
      preparedFrom o <$> Analysis.readSource source { normalizePrimitives := o.normalizePrimitives } path := by
  rw [Converter.prepare, defaults.pipelineFor]
  simp only [runPreParse_builtin, runPostParse_builtin, runPreGenerate_builtin, bind, Except.bind]
  cases Analysis.readSource source { normalizePrimitives := o.normalizePrimitives } path with
  | error e => rfl
  | ok parsed => rfl

end Recast.Plugin
