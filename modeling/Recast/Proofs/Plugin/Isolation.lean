import Mathlib.Data.Int.Order.Basic
import Recast.Plugin.Action
import Recast.Plugin.Pipeline
import Recast.Proofs.Plugin.Builtin
import Recast.Proofs.Sorting

/-!
# Failing hooks are isolated

A run of a phase is a sequence of turns, one for each plugin, and each turn starts from the state that
the one before left. A turn whose hook fails hands on the value it was given, whatever the hook did to
it. So the run delivers what it delivers without the plugins whose hooks failed, and the only warnings
of its own are those about the failures.
-/

set_option autoImplicit false

namespace Recast

/-- What the hooks of a phase work on. -/
def Phase.Value : Phase → Type
  | .preParse => String
  | .postParse => ParsedSource
  | .preGenerate => ParsedSource
  | .postGenerate => String

namespace Plugin

def slotAt : (phase : Phase) → Plugin → Slot phase.Value
  | .preParse => Plugin.preParse
  | .postParse => Plugin.postParse
  | .preGenerate => Plugin.preGenerate
  | .postGenerate => Plugin.postGenerate

def Pipeline.runAt (p : Pipeline) : (phase : Phase) → phase.Value → Context → phase.Value × Context
  | .preParse => p.runPreParse
  | .postParse => p.runPostParse
  | .preGenerate => p.runPreGenerate
  | .postGenerate => p.runPostGenerate

theorem Pipeline.runAt_eq (p : Pipeline) (phase : Phase) (value : phase.Value) (context : Context) :
    p.runAt phase value context = runHooks phase (slotAt phase) p.plugins value context := by
  cases phase <;> rfl

/-! ## Turns -/

variable {α : Type}

/-- A plugin together with the value and the context that it found. -/
structure Turn (α : Type) where
  plugin : Plugin
  value : α
  context : Context

namespace Turn

variable (phase : Phase) (slot : Plugin → Slot α) (t : Turn α)

/-- What the hook did, if the plugin has one and applies. -/
def run? : Option (HookRun α) :=
  ((slot t.plugin).hook?.filter fun _ => t.plugin.appliesTo t.context).map fun hook =>
    hook t.value t.context

/-- The message with which the hook failed. -/
def failure? : Option String :=
  (t.run? slot).bind fun run =>
    match run.outcome with
    | .error message => some message
    | .ok _ => none

/-- The context as the hook left it. -/
def left : Context := ((t.run? slot).map (·.context)).getD t.context

/-- The state that the next turn finds. -/
def after : α × Context := runHook phase slot (t.value, t.context) t.plugin

/-- The warnings of the hook itself. -/
def own : List String := (t.left slot).warnings.drop t.context.warnings.length

/-- The warnings that were added behind those the hook left. -/
def added : List String := (t.after phase slot).2.warnings.drop (t.left slot).warnings.length

/-- The warning about the failure of the hook. -/
def failureWarning? : Option String :=
  (t.failure? slot).map fun message =>
    "Plugin " ++ t.plugin.name ++ " " ++ phase.name ++ " error: " ++ message

/-- A turn ends in one of four ways. -/
theorem after_cases :
    (t.run? slot = none ∧ t.after phase slot = (t.value, t.context)) ∨
    ∃ run, t.run? slot = some run ∧
      ((∃ message, run.outcome = .error message ∧
          t.after phase slot = (t.value, run.context.warn (failureWarning t.plugin phase message))) ∨
        (run.outcome = .ok none ∧ t.after phase slot = (run.argument, run.context)) ∨
        ∃ value, run.outcome = .ok (some value) ∧ t.after phase slot = (value, run.context)) := by
  rw [run?, after, runHook]
  cases (slot t.plugin).hook? with
  | none => exact .inl ⟨rfl, rfl⟩
  | some hook =>
    dsimp only
    cases t.plugin.appliesTo t.context with
    | false => exact .inl ⟨by simp, rfl⟩
    | true =>
      refine .inr ⟨hook t.value t.context, by simp, ?_⟩
      cases (hook t.value t.context).outcome with
      | error message => exact .inl ⟨message, rfl, rfl⟩
      | ok delivered =>
        cases delivered with
        | none => exact .inr (.inl ⟨rfl, rfl⟩)
        | some value => exact .inr (.inr ⟨value, rfl, rfl⟩)

theorem after_warnings : (t.after phase slot).2.warnings =
    (t.left slot).warnings ++ (t.failureWarning? phase slot).toList := by
  rw [left, failureWarning?, failure?]
  obtain ⟨idle, same⟩ | ⟨run, ran, ⟨message, failed, same⟩ | ⟨kept, same⟩ | ⟨value, delivered, same⟩⟩ :=
    t.after_cases phase slot
  · simp [idle, same]
  · simp [ran, failed, same, Context.warn, failureWarning]
  · simp [ran, kept, same]
  · simp [ran, delivered, same]

/-- The only warning a turn adds to those of its hook is the one about a failure. -/
theorem added_eq : t.added phase slot = (t.failureWarning? phase slot).toList := by
  rw [added, after_warnings, List.drop_left]

theorem after_value_of_failure (failed : (t.failure? slot).isSome = true) :
    (t.after phase slot).1 = t.value := by
  rw [failure?] at failed
  obtain ⟨idle, same⟩ | ⟨run, ran, ⟨message, -, same⟩ | ⟨kept, same⟩ | ⟨value, delivered, same⟩⟩ :=
    t.after_cases phase slot
  · rw [same]
  · rw [same]
  · simp [ran, kept] at failed
  · simp [ran, delivered] at failed

end Turn

/-- The turns of a run in the order they are taken. -/
def turns (phase : Phase) (slot : Plugin → Slot α) : List Plugin → α × Context → List (Turn α)
  | [], _ => []
  | p :: ps, state => ⟨p, state.1, state.2⟩ :: turns phase slot ps (runHook phase slot state p)

/-- The plugins whose hooks do not fail in a run. -/
def spared (phase : Phase) (slot : Plugin → Slot α) (plugins : List Plugin) (state : α × Context) :
    List Plugin :=
  ((turns phase slot plugins state).filter fun t => (t.failure? slot).isNone).map (·.plugin)

theorem spared_sublist (phase : Phase) (slot : Plugin → Slot α) (plugins : List Plugin)
    (state : α × Context) : (spared phase slot plugins state).Sublist plugins := by
  have all : (turns phase slot plugins state).map (·.plugin) = plugins := by
    induction plugins generalizing state with
    | nil => rfl
    | cons p ps ih => rw [turns, List.map_cons, ih]
  have kept := (List.filter_sublist (l := turns phase slot plugins state)
    (p := fun t => (t.failure? slot).isNone)).map (·.plugin)
  rwa [all] at kept

theorem spared_cons_of_none {phase : Phase} {slot : Plugin → Slot α} {p : Plugin} {state : α × Context}
    (fine : (Turn.mk p state.1 state.2).failure? slot = none) (ps : List Plugin) :
    spared phase slot (p :: ps) state = p :: spared phase slot ps (runHook phase slot state p) := by
  rw [spared, turns, List.filter_cons_of_pos (by rw [fine]; rfl), List.map_cons, spared]

theorem spared_cons_of_some {phase : Phase} {slot : Plugin → Slot α} {p : Plugin} {state : α × Context}
    {message : String} (failed : (Turn.mk p state.1 state.2).failure? slot = some message)
    (ps : List Plugin) :
    spared phase slot (p :: ps) state = spared phase slot ps (runHook phase slot state p) := by
  rw [spared, turns, List.filter_cons_of_neg (by rw [failed]; simp), spared]

/-! ## Values -/

/-- A plugin whose hook is a matter of the value alone, and that applies or not by the settings of the
conversion. The hook may change its value in place, and may write to the context. -/
structure ValueOnly (slot : Plugin → Slot α) (p : Plugin) : Prop where
  argument : ∀ hook, (slot p).hook? = some hook → ∀ value c d,
    (hook value c).argument = (hook value d).argument
  outcome : ∀ hook, (slot p).hook? = some hook → ∀ value c d,
    (hook value c).outcome = (hook value d).outcome
  settings : ∀ hook, (slot p).hook? = some hook → ∀ value c,
    (hook value c).context.target = c.target ∧ (hook value c).context.options = c.options
  applies : ∀ c d : Context, c.target = d.target → c.options = d.options → p.appliesTo c = p.appliesTo d

/-- Contexts of conversions with the same settings. -/
structure SameSettings (c d : Context) : Prop where
  target : c.target = d.target
  options : c.options = d.options

section Values

variable (phase : Phase) (slot : Plugin → Slot α)

theorem runHook_settings {p : Plugin} (only : p.ValueOnly slot) (value : α) (c : Context) :
    SameSettings (runHook phase slot (value, c) p).2 c := by
  rw [runHook]
  cases hooked : (slot p).hook? with
  | none => exact ⟨rfl, rfl⟩
  | some hook =>
    obtain ⟨target, options⟩ := only.settings hook hooked value c
    dsimp only
    split
    · exact ⟨rfl, rfl⟩
    · split
      · exact ⟨target, options⟩
      · exact ⟨target, options⟩
      · exact ⟨target, options⟩

/-- What a plugin makes of a value is the same in every context with the same settings. -/
theorem runHook_value {p : Plugin} (only : p.ValueOnly slot) (value : α) {c d : Context}
    (same : SameSettings c d) :
    (runHook phase slot (value, c) p).1 = (runHook phase slot (value, d) p).1 := by
  rw [runHook, runHook]
  cases hooked : (slot p).hook? with
  | none => rfl
  | some hook =>
    dsimp only
    rw [only.applies c d same.target same.options, only.outcome hook hooked value c d,
      only.argument hook hooked value c d]
    split
    · rfl
    · split <;> rfl

/-- A run without the plugins whose hooks fail delivers the same value, also in another context with
the same settings. -/
theorem runHooks_spared (plugins : List Plugin) (only : ∀ p ∈ plugins, p.ValueOnly slot) (value : α)
    {c d : Context} (same : SameSettings c d) :
    (runHooks phase slot (spared phase slot plugins (value, c)) value d).1 =
      (runHooks phase slot plugins value c).1 := by
  induction plugins generalizing value c d with
  | nil => rfl
  | cons p ps ih =>
    have here := only p (by simp)
    have rest := fun q member => only q (List.mem_cons_of_mem p member)
    have kept := runHook_settings phase slot here value c
    have next : ∀ qs e, runHooks phase slot (p :: qs) value e =
        runHooks phase slot qs (runHook phase slot (value, e) p).1 (runHook phase slot (value, e) p).2 :=
      fun _ _ => rfl
    cases failed : (Turn.mk p value c).failure? slot with
    | none =>
      -- The plugin runs on both sides, on the same value.
      have agrees := runHook_value phase slot here value same
      have kept' := runHook_settings phase slot here value d
      have settings : SameSettings (runHook phase slot (value, c) p).2 (runHook phase slot (value, d) p).2 :=
        ⟨kept.target.trans (same.target.trans kept'.target.symm),
          kept.options.trans (same.options.trans kept'.options.symm)⟩
      rw [spared_cons_of_none failed, next, next, ← agrees, ← ih rest _ settings]
    | some message =>
      -- The plugin runs on one side only, and hands the value on.
      have unchanged : (runHook phase slot (value, c) p).1 = value :=
        (Turn.mk p value c).after_value_of_failure phase slot (by rw [failed]; rfl)
      have settings : SameSettings (runHook phase slot (value, c) p).2 d :=
        ⟨kept.target.trans same.target, kept.options.trans same.options⟩
      have both : runHook phase slot (value, c) p = (value, (runHook phase slot (value, c) p).2) :=
        Prod.ext unchanged rfl
      rw [spared_cons_of_some failed, next, ← ih rest _ settings, unchanged, ← both]

end Values

/-! ## Warnings -/

/-- A plugin whose hook takes no warnings back. -/
def KeepsWarnings (slot : Plugin → Slot α) (p : Plugin) : Prop :=
  ∀ hook, (slot p).hook? = some hook → ∀ value c, c.warnings <+: (hook value c).context.warnings

section Warnings

variable (phase : Phase) (slot : Plugin → Slot α)

theorem flatMap_added (ts : List (Turn α)) :
    ts.flatMap (·.added phase slot) = ts.filterMap (·.failureWarning? phase slot) := by
  induction ts with
  | nil => rfl
  | cons t ts ih =>
    rw [List.flatMap_cons, ih, t.added_eq, List.filterMap_cons]
    cases t.failureWarning? phase slot <;> rfl

theorem Turn.after_warnings_eq {t : Turn α} (keeps : t.plugin.KeepsWarnings slot) :
    (t.after phase slot).2.warnings = t.context.warnings ++ (t.own slot ++ t.added phase slot) := by
  have left : t.context.warnings <+: (t.left slot).warnings := by
    rw [Turn.left, Turn.run?]
    cases hooked : (slot t.plugin).hook? with
    | none => exact List.prefix_refl _
    | some hook =>
      rw [Option.filter_some]
      split
      · exact keeps hook hooked t.value t.context
      · exact List.prefix_refl _
  rw [t.after_warnings phase slot, t.added_eq phase slot, Turn.own, ← List.append_assoc,
    List.prefix_iff_eq_append.mp left]

/-- The warnings of a run are those from before it, and then, turn by turn, those of the hook and the
one about its failure. -/
theorem runHooks_warnings (plugins : List Plugin) (keep : ∀ p ∈ plugins, p.KeepsWarnings slot) (value : α)
    (c : Context) :
    (runHooks phase slot plugins value c).2.warnings = c.warnings ++
      (turns phase slot plugins (value, c)).flatMap fun t => t.own slot ++ t.added phase slot := by
  induction plugins generalizing value c with
  | nil => exact (List.append_nil _).symm
  | cons p ps ih =>
    have here := @Turn.after_warnings_eq α phase slot ⟨p, value, c⟩ (keep p (by simp))
    have rest := ih (fun q member => keep q (List.mem_cons_of_mem p member))
      (runHook phase slot (value, c) p).1 (runHook phase slot (value, c) p).2
    rw [turns, List.flatMap_cons, ← List.append_assoc, ← here]
    exact rest

end Warnings

/-! ## Pipelines -/

theorem check_of_forM {plugins : List Plugin} (checked : plugins.forM Plugin.check = .ok ()) :
    ∀ p ∈ plugins, p.check = .ok () := by
  induction plugins with
  | nil => simp
  | cons q plugins ih =>
    have step : (q :: plugins).forM Plugin.check = q.check >>= fun _ => plugins.forM Plugin.check := rfl
    rw [step] at checked
    cases first : q.check with
    | error e =>
      rw [first] at checked
      cases checked
    | ok u =>
      rw [first] at checked
      intro p member
      rcases List.mem_cons.mp member with rfl | later
      · exact first
      · exact ih checked p later

theorem Pipeline.make_eq_ok_iff {plugins : List Plugin} {p : Pipeline} :
    Pipeline.make plugins = .ok p ↔ (∀ q ∈ plugins, q.check = .ok ()) ∧ p = ⟨Pipeline.sort plugins⟩ := by
  constructor
  · intro made
    rw [Pipeline.make] at made
    cases checked : plugins.forM Plugin.check with
    | error e =>
      rw [checked] at made
      cases made
    | ok u =>
      rw [checked] at made
      exact ⟨check_of_forM checked, (Except.ok.inj made).symm⟩
  · rintro ⟨checked, rfl⟩
    rw [Pipeline.make, forM_check checked]
    rfl

/-- Plugins of a pipeline, in its order, are a pipeline. -/
theorem Pipeline.make_of_sublist {plugins kept : List Plugin} {p : Pipeline}
    (made : Pipeline.make plugins = .ok p) (part : kept.Sublist p.plugins) :
    Pipeline.make kept = .ok ⟨kept⟩ := by
  obtain ⟨checked, rfl⟩ := Pipeline.make_eq_ok_iff.mp made
  have ordered : (Pipeline.sort plugins).Pairwise fun a b => a.orderNumber ≤ b.orderNumber :=
    pairwise_mergeSort_key orderNumber plugins
  refine Pipeline.make_eq_ok_iff.mpr ⟨fun q member => ?_, ?_⟩
  · exact checked q ((List.mergeSort_perm _ _).mem_iff.mp (part.subset member))
  · rw [Pipeline.sort, List.mergeSort_of_pairwise ((ordered.sublist part).imp decide_eq_true)]

namespace Pipeline

variable (p : Pipeline) (phase : Phase) (value : phase.Value) (context : Context)

def turnsAt : List (Turn phase.Value) := turns phase (slotAt phase) p.plugins (value, context)

/-- The pipeline without the plugins whose hooks fail in a phase. -/
def sparedAt : Pipeline := ⟨spared phase (slotAt phase) p.plugins (value, context)⟩

end Pipeline

/-- A phase delivers what it delivers without the plugins whose hooks failed, and its own warnings are
one for each failure, in the order of the turns. -/
theorem runAt_isolated (plugins : List Plugin) (p : Pipeline) (made : Pipeline.make plugins = .ok p)
    (phase : Phase) (value : phase.Value) (context : Context)
    (only : ∀ q ∈ plugins, q.ValueOnly (slotAt phase)) :
    Pipeline.make (p.sparedAt phase value context).plugins = .ok (p.sparedAt phase value context) ∧
    ((p.sparedAt phase value context).runAt phase value context).1 = (p.runAt phase value context).1 ∧
    (∀ t ∈ p.turnsAt phase value context,
      (t.left (slotAt phase)).warnings <+: (t.after phase (slotAt phase)).2.warnings) ∧
    (p.turnsAt phase value context).flatMap (·.added phase (slotAt phase)) =
      (p.turnsAt phase value context).filterMap (·.failureWarning? phase (slotAt phase)) ∧
    ((∀ q ∈ plugins, q.KeepsWarnings (slotAt phase)) →
      (p.runAt phase value context).2.warnings = context.warnings ++
        (p.turnsAt phase value context).flatMap fun t =>
          t.own (slotAt phase) ++ t.added phase (slotAt phase)) := by
  obtain ⟨-, sorted⟩ := Pipeline.make_eq_ok_iff.mp made
  have member : ∀ q ∈ p.plugins, q ∈ plugins := by
    intro q listed
    rw [sorted] at listed
    exact (List.mergeSort_perm _ _).mem_iff.mp listed
  refine ⟨Pipeline.make_of_sublist made (spared_sublist _ _ _ _), ?_, fun t _ => ?_, flatMap_added _ _ _, ?_⟩
  · rw [Pipeline.runAt_eq, Pipeline.runAt_eq]
    exact runHooks_spared phase (slotAt phase) p.plugins (fun q listed => only q (member q listed)) value
      ⟨rfl, rfl⟩
  · rw [t.after_warnings]
    exact List.prefix_append _ _
  · intro keep
    rw [Pipeline.runAt_eq]
    exact runHooks_warnings phase (slotAt phase) p.plugins (fun q listed => keep q (member q listed)) value
      context

/-! ## Scripted hooks

What a scripted hook does is a matter of the value it is given, even when it fails behind a change. -/

theorem SourceAction.run_agrees (a : SourceAction) (value : ParsedSource) (c d : Context) :
    (a.run value c).argument = (a.run value d).argument ∧
      (a.run value c).outcome = (a.run value d).outcome := by
  cases a with
  | common action => cases action <;> exact ⟨rfl, rfl⟩
  | setRoot component nodes => cases nodes <;> exact ⟨rfl, rfl⟩
  | addProp component prop => cases prop <;> exact ⟨rfl, rfl⟩
  | _ => exact ⟨rfl, rfl⟩

theorem SourceAction.run_context (a : SourceAction) (value : ParsedSource) (c : Context) :
    (a.run value c).context.target = c.target ∧ (a.run value c).context.options = c.options ∧
      c.warnings <+: (a.run value c).context.warnings := by
  have same : c.warnings <+: c.warnings := List.prefix_refl _
  cases a with
  | common action =>
    cases action with
    | warn message => exact ⟨rfl, rfl, List.prefix_append _ _⟩
    | _ => exact ⟨rfl, rfl, same⟩
  | setRoot component nodes => cases nodes <;> exact ⟨rfl, rfl, same⟩
  | addProp component prop => cases prop <;> exact ⟨rfl, rfl, same⟩
  | _ => exact ⟨rfl, rfl, same⟩

/-- A plugin with one scripted hook for sources that were read. -/
def scripted (name : String) (order : Int) (action : SourceAction) : Plugin :=
  { kind := "Scripted", name, order := .int order, postParse := .hook action.run }

theorem hook?_scripted {name : String} {order : Int} {action : SourceAction} {hook : Hook ParsedSource}
    (held : (slotAt .postParse (scripted name order action)).hook? = some hook) : hook = action.run :=
  (Option.some.inj held).symm

theorem scripted_valueOnly (name : String) (order : Int) (action : SourceAction) :
    (scripted name order action).ValueOnly (slotAt .postParse) where
  argument hook held value c d := by
    rw [hook?_scripted held]
    exact (action.run_agrees value c d).1
  outcome hook held value c d := by
    rw [hook?_scripted held]
    exact (action.run_agrees value c d).2
  settings hook held value c := by
    rw [hook?_scripted held]
    exact ⟨(action.run_context value c).1, (action.run_context value c).2.1⟩
  applies _ _ _ _ := rfl

theorem scripted_keepsWarnings (name : String) (order : Int) (action : SourceAction) :
    (scripted name order action).KeepsWarnings (slotAt .postParse) := by
  intro hook held value c
  rw [hook?_scripted held]
  exact (action.run_context value c).2.2

/-- A plugin that takes all components off the list and fails, in front of one that leaves a warning
and one that renames a component. -/
def meddling : List Plugin := [
  scripted "broken" 20 (.clearThenFail "boom"),
  scripted "note" 20 (.common (.warn "seen")),
  scripted "rename" 30 (.rename "Card" "Panel")]

def cardSource : ParsedSource := { components := [{ name := "Card" }] }

def cardContext : Context :=
  { target := .svelte, options := { formatTimeout := .whole 1 }, warnings := ["earlier"] }

theorem make_meddling : Pipeline.make meddling = .ok ⟨meddling⟩ := by
  refine Pipeline.make_eq_ok_iff.mpr ⟨fun q member => ?_, ?_⟩
  · simp only [meddling, List.mem_cons, List.not_mem_nil, or_false] at member
    rcases member with rfl | rfl | rfl <;> exact check_eq_ok (by decide +kernel)
  · rw [Pipeline.sort, List.mergeSort_of_pairwise]
    simp [meddling, scripted, orderNumber]

theorem runAt_isolated_meddling :
    (Pipeline.sparedAt ⟨meddling⟩ .postParse cardSource cardContext).names = ["note", "rename"] ∧
    ((Pipeline.sparedAt ⟨meddling⟩ .postParse cardSource cardContext).runAt
      .postParse cardSource cardContext).1 = (Pipeline.runPostParse ⟨meddling⟩ cardSource cardContext).1 ∧
    (Pipeline.turnsAt ⟨meddling⟩ .postParse cardSource cardContext).flatMap
      (·.added .postParse (slotAt .postParse)) = ["Plugin broken post_parse error: boom"] ∧
    (Pipeline.runPostParse ⟨meddling⟩ cardSource cardContext).2.warnings =
      ["earlier", "Plugin broken post_parse error: boom", "seen"] := by
  have only : ∀ q ∈ meddling, q.ValueOnly (slotAt .postParse) := by
    intro q member
    simp only [meddling, List.mem_cons, List.not_mem_nil, or_false] at member
    rcases member with rfl | rfl | rfl <;> exact scripted_valueOnly _ _ _
  have keep : ∀ q ∈ meddling, q.KeepsWarnings (slotAt .postParse) := by
    intro q member
    simp only [meddling, List.mem_cons, List.not_mem_nil, or_false] at member
    rcases member with rfl | rfl | rfl <;> exact scripted_keepsWarnings _ _ _
  obtain ⟨-, same, -, added, warnings⟩ :=
    runAt_isolated meddling ⟨meddling⟩ make_meddling .postParse cardSource cardContext only
  exact ⟨by decide +kernel, same, added.trans (by decide +kernel), (warnings keep).trans (by decide +kernel)⟩

end Plugin

end Recast
