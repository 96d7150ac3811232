import Recast.Proofs.Analysis.Source
import Recast.Proofs.Layout.Flat
import Recast.Proofs.Plugin.Builtin

/-!
# Converting all components

With the default plugins, components do not influence each other: converting all components of a
source gives for each what converting it alone gives, in the order of the source, and none fails.
-/

set_option autoImplicit false

namespace Recast

open Recast.Generate Recast.Markup Recast.Plugin
open Recast.Analysis (readSource)

/-! ## Generation succeeds -/

theorem markupOf_sound {k : Component} (sound : Sound k.root) (m : Metadata) : Sound (markupOf k m) := by
  rw [markupOf]
  split
  · exact sound_element.mpr ⟨fun _ => rfl, sound_nil⟩
  · exact sound

theorem exists_generate {k : Component} (sound : Sound k.root) (o : Options) :
    ∃ g, generate k o = .ok g := by
  have nodes := markupOf_sound sound (metadataOf k)
  rw [generate]
  cases o.target with
  | svelte =>
    obtain ⟨text, rendered, -⟩ := Layout.Svelte.markup_ink ⟨k, metadataOf k, o.svelte.runes⟩ nodes
    dsimp only
    rw [Svelte.generate, rendered]
    exact ⟨_, rfl⟩
  | vue =>
    obtain ⟨text, rendered, -⟩ := Layout.Vue.template_ink ⟨k, metadataOf k⟩ nodes
    dsimp only
    rw [Vue.generate, rendered]
    exact ⟨_, rfl⟩

namespace Converter

/-! ## The name of a component in a call -/

def named (name : String) (o : Options) : Options := { o with targetComponent := some name }

theorem resolve_named (c : Converter) (r : Request) (name : String) :
    c.resolve { r with component := some name } = named name <$> c.resolve { r with component := none } := by
  simp only [Converter.resolve, Options.merged]
  cases (r.target.map Target.parse).getD (.ok c.options.target) with
  | error e => rfl
  | ok target =>
    simp only [bind, Except.bind, Options.check]
    split
    · rfl
    · split
      · rfl
      · split <;> rfl

/-- Neither the generators nor the hooks look at the name in the options. -/
theorem finish_named (c : Converter) (o : Options) (parsed : ParsedSource) (k : Component) (name : String) :
    c.finish (preparedFrom (named name o) parsed) k = c.finish (preparedFrom o parsed) k := by
  have same : generate k (named name o) = generate k o := rfl
  have options : ∀ o, (preparedFrom o parsed).context.options = o := fun _ => rfl
  have pipeline : ∀ o, (preparedFrom o parsed).pipeline = ⟨builtinPlugins o.target⟩ := fun _ => rfl
  rw [finish, finish, options, options, pipeline, pipeline, same]
  cases generate k o with
  | error e => rfl
  | ok g =>
    simp only [bind, Except.bind]
    rw [runPostGenerate_builtin, runPostGenerate_builtin]
    · rfl
    · rfl
    · rfl

/-- What one component of a source is converted to. -/
theorem exists_finish (c : Converter) (o : Options) (parsed : ParsedSource) {k : Component}
    (sound : Sound k.root) :
    ∃ result, c.finish (preparedFrom o parsed) k = .ok result ∧ result.component = k.name := by
  obtain ⟨g, generated⟩ := exists_generate sound o
  have options : (preparedFrom o parsed).context.options = o := rfl
  rw [finish, options, generated]
  exact ⟨_, rfl, rfl⟩

/-! ## Finding a component -/

theorem find?_of_nodup {components : List Component} (distinct : (components.map (·.name)).Nodup)
    {k : Component} (member : k ∈ components) : components.find? (·.name == k.name) = some k := by
  induction components with
  | nil => cases member
  | cons first rest ih =>
    rw [List.map_cons, List.nodup_cons] at distinct
    rcases List.mem_cons.mp member with rfl | later
    · exact List.find?_cons_of_pos (by simp)
    · have other : first.name ≠ k.name := by
        intro same
        exact distinct.1 (same ▸ List.mem_map_of_mem later)
      rw [List.find?_cons_of_neg (by simpa using other)]
      exact ih distinct.2 later

theorem choose_of_nodup {p : ParsedSource} (distinct : (p.components.map (·.name)).Nodup) {k : Component}
    (member : k ∈ p.convertible) (nonempty : k.name ≠ "") (path : Option String) :
    choose p (some k.name) path = .ok k := by
  obtain ⟨listed, own⟩ := List.mem_filter.mp member
  have found : (p.find? k.name).filter (!·.isReExport) = some k := by
    rw [ParsedSource.find?, find?_of_nodup distinct listed, Option.filter_some, if_pos own]
  rw [choose, Option.filter_some, if_pos (by simpa using nonempty)]
  dsimp only
  rw [found]

/-! ## Consolidated components -/

theorem map_name_consolidated (p : ParsedSource) :
    (consolidated p).components.map (·.name) = p.components.map (·.name) := by
  rw [consolidated, ParsedSource.updateConvertible, List.map_map]
  refine List.map_congr_left fun k _ => ?_
  rw [Function.comp_apply]
  split <;> rfl

def gathered (shared : Shared) (k : Component) : Component :=
  { k with metadata := some (Metadata.ofComponent k shared) }

theorem convertible_consolidated (p : ParsedSource) :
    (consolidated p).convertible = p.convertible.map (gathered p.shared) := by
  have kept : (fun k : Component => !k.isReExport) ∘
      (fun k => if k.isReExport then k else gathered p.shared k) = fun k => !k.isReExport := by
    funext k
    rw [Function.comp_apply]
    split <;> rfl
  have components : (consolidated p).components =
      p.components.map fun k => if k.isReExport then k else gathered p.shared k := rfl
  rw [ParsedSource.convertible, components, List.filter_map, kept, ParsedSource.convertible]
  refine List.map_congr_left fun k member => ?_
  have own := (List.mem_filter.mp member).2
  rw [if_neg (by simpa using own)]

/-! ## One and all -/

/-- In a source that is well formed, as whatever is made of a tree, a component with markup of its own is
found by its name, and it is converted. -/
theorem convertible_each (c : Converter) (o : Options) {parsed : ParsedSource} (wellFormed : parsed.WellFormed)
    (distinct : (parsed.components.map (·.name)).Nodup) (path : Option String) {k : Component}
    (member : k ∈ (consolidated parsed).convertible) :
    choose (consolidated parsed) (some k.name) path = .ok k ∧
      ∃ result, c.finish (preparedFrom o parsed) k = .ok result ∧
        c.convertOne (preparedFrom o parsed) k = result ∧ result.component = k.name := by
  have listed := member
  rw [convertible_consolidated] at listed
  obtain ⟨source, own, rfl⟩ := List.mem_map.mp listed
  obtain ⟨sound, -, isName⟩ := wellFormed.components source (List.mem_filter.mp own).1
  have nonempty : (gathered parsed.shared source).name ≠ "" := by
    intro empty
    rw [show source.name = "" from empty] at isName
    cases isName
  obtain ⟨result, finished, component⟩ := @exists_finish c o parsed (gathered parsed.shared source) sound
  refine ⟨choose_of_nodup ?_ member nonempty path, result, finished, ?_, component⟩
  · rwa [map_name_consolidated]
  · rw [convertOne, finished]

section Calls

variable {c : Converter} (defaults : UsesDefaults c) {r : Request} {o : Options} {parsed : ParsedSource}
  (resolved : c.resolve { r with component := none } = .ok o)
  (read : readSource r.source { normalizePrimitives := o.normalizePrimitives } r.path = .ok parsed)
  (distinct : (parsed.components.map (·.name)).Nodup)

include defaults resolved read

theorem convert_named {k : Component}
    (chosen : choose (consolidated parsed) (some k.name) r.path = .ok k) :
    c.convert { r with component := some k.name } = c.finish (preparedFrom o parsed) k := by
  have prepared : c.prepare (named k.name o) r.source r.path = .ok (preparedFrom (named k.name o) parsed) := by
    rw [prepare_eq defaults, show (named k.name o).normalizePrimitives = o.normalizePrimitives from rfl, read]
    rfl
  rw [convert, resolve_named, resolved]
  simp only [Functor.map, Except.map, bind, Except.bind, prepared]
  rw [show choose (preparedFrom (named k.name o) parsed).source (named k.name o).targetComponent r.path =
    .ok k from chosen]
  exact finish_named c o parsed k k.name

include distinct

theorem convertAll_eq_map : c.convertAll r =
    .ok ((consolidated parsed).convertible.map (c.convertOne (preparedFrom o parsed))) := by
  have prepared : c.prepare o r.source r.path = .ok (preparedFrom o parsed) := by
    rw [prepare_eq defaults, read]
    rfl
  have keys : Assoc.keys ((consolidated parsed).convertible.map fun k =>
      (k.name, c.convertOne (preparedFrom o parsed) k)) = (consolidated parsed).convertible.map (·.name) := by
    rw [Assoc.keys, List.map_map]
    rfl
  have unique : ((consolidated parsed).convertible.map (·.name)).Nodup := by
    refine List.Nodup.sublist (List.filter_sublist.map _) ?_
    rwa [map_name_consolidated]
  rw [convertAll, resolved]
  simp only [bind, Except.bind, prepared]
  rw [show (preparedFrom o parsed).source = consolidated parsed from rfl,
    Assoc.ofEntries_of_nodup (by rwa [keys]), List.map_map]
  rfl

end Calls

/-- Converting all components gives what converting each of them alone gives. -/
theorem convertAll_eq_each (c : Converter) (defaults : UsesDefaults c) (r : Request) (o : Options)
    (parsed : ParsedSource) (resolved : c.resolve { r with component := none } = .ok o)
    (read : readSource r.source { normalizePrimitives := o.normalizePrimitives } r.path = .ok parsed)
    (distinct : (parsed.components.map (·.name)).Nodup) :
    ∃ results, c.convertAll r = .ok results ∧
      results.map (·.component) = parsed.convertible.map (·.name) ∧
      ∀ result ∈ results, c.convert { r with component := some result.component } = .ok result := by
  have each : ∀ k ∈ (consolidated parsed).convertible,
      (c.convertOne (preparedFrom o parsed) k).component = k.name ∧
        c.convert { r with component := some k.name } = .ok (c.convertOne (preparedFrom o parsed) k) := by
    intro k member
    obtain ⟨chosen, result, finished, one, component⟩ :=
      convertible_each c o (Analysis.readSource_ok read) distinct r.path member
    rw [convert_named defaults resolved read chosen, finished, one]
    exact ⟨component, rfl⟩
  refine ⟨_, convertAll_eq_map defaults resolved read distinct, ?_, ?_⟩
  · calc ((consolidated parsed).convertible.map (c.convertOne (preparedFrom o parsed))).map (·.component)
        = (consolidated parsed).convertible.map (·.name) := by
          rw [List.map_map]
          exact List.map_congr_left fun k member => (each k member).1
      _ = parsed.convertible.map (·.name) := by
          rw [convertible_consolidated, List.map_map]
          rfl
  · intro result member
    obtain ⟨k, listed, rfl⟩ := List.mem_map.mp member
    obtain ⟨component, converted⟩ := each k listed
    rw [component, converted]

/-- A label next to two components of its own. -/
def labelSource : String :=
  "const Note = () => <p />\nconst Label = LabelPrimitive.Root\nconst Mark = () => <b />"

def labelConverter : Converter := { options := { target := .vue, formatTimeout := .whole 1 } }

theorem read_label : ∃ parsed, readSource labelSource { normalizePrimitives := true } none = .ok parsed ∧
    parsed.components.map (·.name) = ["Note", "Label", "Mark"] ∧
    parsed.convertible.map (·.name) = ["Note", "Mark"] := by
  have checked : (readSource labelSource { normalizePrimitives := true } none).toOption.any (fun parsed =>
      parsed.components.map (·.name) = ["Note", "Label", "Mark"] ∧
      parsed.convertible.map (·.name) = ["Note", "Mark"]) = true := by
    have chars : labelSource = String.ofList _ := rfl
    rw [chars, readSource, String.toList_ofList, Tsx.parse?_ofList]
    decide +kernel
  cases read : readSource labelSource { normalizePrimitives := true } none with
  | error e =>
    rw [read] at checked
    cases checked
  | ok parsed =>
    rw [read] at checked
    exact ⟨parsed, rfl, of_decide_eq_true checked⟩

theorem convertAll_eq_each_label :
    ∃ results, labelConverter.convertAll { source := labelSource } = .ok results ∧
      results.map (·.component) = ["Note", "Mark"] ∧
      ∀ result ∈ results, labelConverter.convert
        { source := labelSource, component := some result.component } = .ok result := by
  obtain ⟨parsed, read, names, convertible⟩ := read_label
  have distinct : (parsed.components.map (·.name)).Nodup := by
    rw [names]
    decide
  have each := convertAll_eq_each labelConverter ⟨rfl, rfl, rfl⟩ { source := labelSource }
    labelConverter.options parsed rfl read distinct
  rwa [convertible] at each

end Converter

end Recast
