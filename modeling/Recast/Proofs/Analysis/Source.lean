import Recast.Analysis.Source
import Recast.Proofs.Analysis.Markup
import Recast.Proofs.Analysis.Props
import Recast.Proofs.Analysis.Variants
import Recast.Proofs.Text.Substitution

/-!
# Sources that are read are well formed

The analysis of any tree gives components with sound markup and fitting props, consistent
configurations, no complaints, and a primary component that has markup of its own whenever some component
does. Reading a source gives no less, and fails only on text that does not parse.
-/

set_option autoImplicit false

namespace Recast

open Recast.Markup

/-- A component with sound markup and fitting props under the name of a component. -/
structure Component.WellFormed (configs : Assoc VariantConfig) (c : Component) : Prop where
  sound : Sound c.root
  fit : AllFit configs c.props
  named : Analysis.isComponentName c.name = true

structure ParsedSource.WellFormed (p : ParsedSource) : Prop where
  components : ∀ c ∈ p.components, c.WellFormed p.shared.variantConfigs
  consistent : ∀ entry ∈ p.shared.variantConfigs, entry.2.Consistent
  no_errors : p.errors = []
  primary_eq_none : p.primary? = none ↔ p.components = []
  primary_mem : ∀ c, p.primary? = some c → c ∈ p.components
  /-- A name for a primitive is primary only among its like. -/
  primary_reExport : ∀ c, p.primary? = some c → c.isReExport = true →
    ∀ d ∈ p.components, d.isReExport = true

/-- Nothing in a source is refused by the checks on elements, props and configurations. -/
structure ParsedSource.Accepted (p : ParsedSource) : Prop where
  elements : ∀ c ∈ p.components, ∀ h cs, Node.element h cs ∈ Node.preorderList c.root →
    Node.make h cs = .ok (.element h cs)
  props : ∀ c ∈ p.components, ∀ q ∈ c.props, q.check = .ok q
  configs : ∀ entry ∈ p.shared.variantConfigs, entry.2.check = .ok entry.2

theorem ParsedSource.WellFormed.accepted {p : ParsedSource} (wellFormed : p.WellFormed) : p.Accepted where
  elements c member h cs inside := by
    rw [Node.make_eq_ok_iff]
    exact (wellFormed.components c member).sound _ inside
  props c member q listed := by
    rw [Property.check_eq_ok_iff]
    exact ((wellFormed.components c member).fit q listed).labelled
  configs entry member := by
    rw [VariantConfig.check_eq_ok_iff]
    exact (wellFormed.consistent entry member).declared

theorem Component.problems_eq_nil {c : Component} {configs : Assoc VariantConfig}
    (fit : AllFit configs c.props) : c.problems (configs.map (·.2)) = [] := by
  rw [problems, List.map_eq_nil_iff, List.filter_eq_nil_iff]
  intro p member
  cases isVariant : p.isVariant with
  | false => simp
  | true =>
    obtain ⟨entry, listed, hasAxis⟩ := (fit p member).declared isVariant
    simpa using ⟨entry.1, entry.2, listed, hasAxis⟩

namespace Analysis

open Recast.Tsx

/-! ## Components -/

theorem ofDeclarator?_named {d : Tree} {found : Discovered} (declares : ofDeclarator? d = some found) :
    isComponentName found.name = true := by
  rw [ofDeclarator?] at declares
  obtain ⟨name, -, rest⟩ := Option.bind_eq_some_iff.mp declares
  obtain ⟨field, -, rest⟩ := Option.bind_eq_some_iff.mp rest
  obtain ⟨value, -, rest⟩ := Option.bind_eq_some_iff.mp rest
  obtain ⟨_, guarded, rest⟩ := Option.bind_eq_some_iff.mp rest
  have named : isComponentName name.text = true := (Option.guard_eq_some' _).mp guarded
  dsimp only at rest
  split at rest
  · obtain rfl := Option.some.inj rest
    exact named
  · split at rest
    · obtain rfl := Option.some.inj rest
      exact named
    · split at rest
      · obtain rfl := Option.some.inj rest
        exact named
      · cases rest

theorem discover_named (root : Tree) : ∀ found ∈ discover root, isComponentName found.name = true := by
  intro found member
  obtain ⟨d, -, here⟩ := List.mem_flatMap.mp member
  have isFunction : found ∈ (ofFunction? d).toList → isComponentName found.name = true := by
    intro declares
    rw [ofFunction?] at declares
    split at declares
    · rename_i named
      obtain rfl := List.mem_singleton.mp declares
      exact named
    · cases declares
  split at here
  · obtain ⟨declarator, -, declares⟩ := List.mem_filterMap.mp here
    exact ofDeclarator?_named declares
  · obtain ⟨declarator, -, declares⟩ := List.mem_filterMap.mp here
    exact ofDeclarator?_named declares
  · exact isFunction here
  · exact isFunction here
  · cases here

theorem markupOf_sound (options : ReadOptions) (component : String) (function : Tree) :
    Yields Sound (markupOf options component function) := by
  rw [markupOf]
  split
  · exact Yields.pure sound_nil
  · exact convertRoot_sound _ _

theorem build_wellFormed (root : Tree) (shared : Shared) (options : ReadOptions) {found : Discovered}
    (named : isComponentName found.name = true) (function call : Option Tree) :
    Yields (Component.WellFormed shared.variantConfigs)
      (componentOf.build root shared options found function call) := by
  have known := known_of_get? shared.variantConfigs (variantNameFor? found.text shared.variantConfigs.keys)
  rw [componentOf.build]
  refine Yields.after fun refForward => ?_
  dsimp only
  split
  · refine (markupOf_sound options found.name _).bind fun nodes sound => ?_
    refine Yields.warned ?_ _ _
    refine (propsOf_fits known root).bind fun props fit => ?_
    exact Yields.pure ⟨sound, fit, named⟩
  · refine (Yields.pure sound_nil).bind fun nodes sound => ?_
    refine Yields.warned ?_ _ _
    refine (propsOf_fits known root).bind fun props fit => ?_
    exact Yields.pure ⟨sound, fit, named⟩

theorem componentOf_wellFormed (root : Tree) (shared : Shared) (options : ReadOptions)
    {found : Discovered} (named : isComponentName found.name = true) :
    Yields (Component.WellFormed shared.variantConfigs) (componentOf root shared options found) := by
  rw [componentOf]
  split
  · exact Yields.pure ⟨sound_nil, allFit_nil, named⟩
  · exact build_wellFormed root shared options named _ _
  · exact build_wellFormed root shared options named _ _

/-! ## Sources -/

theorem componentsOf_wellFormed (root : Tree) (options : ReadOptions) :
    Yields (fun found => (∀ c ∈ found.2, c.WellFormed found.1.variantConfigs) ∧
      ∀ entry ∈ found.1.variantConfigs, entry.2.Consistent) (componentsOf root options) := by
  refine (variantConfigsOf_consistent root).bind fun configs consistent => ?_
  have each : ∀ shared : Shared, ∀ found ∈ discover root,
      Yields (Component.WellFormed shared.variantConfigs) (componentOf root shared options found) :=
    fun shared found member => componentOf_wellFormed root shared options (discover_named root found member)
  refine (Yields.mapM _ (each _)).bind fun components wellFormed => ?_
  exact Yields.pure ⟨wellFormed, consistent⟩

/-- The primary component is the first with markup of its own, else the first. -/
theorem primary?_eq {p : ParsedSource} (chosen : p.primary = primaryOf p.components) :
    p.primary? = (p.components.find? (!·.isReExport)).or p.components.head? := by
  rw [ParsedSource.primary?, chosen, primaryOf, List.find?_eq_bind_findIdx?_getElem?]
  cases first : p.components.findIdx? (!·.isReExport) with
  | some i =>
    obtain ⟨inside, -⟩ := List.findIdx?_eq_some_iff_getElem.mp first
    simp [List.getElem?_eq_getElem inside]
  | none => cases p.components <;> rfl

/-- What is made of a tree is well formed, whatever tree it is. -/
theorem analyze_wellFormed (root : Tree) (options : ReadOptions) : (analyze root options).WellFormed := by
  obtain ⟨components, consistent⟩ := componentsOf_wellFormed root options []
  have primary := @primary?_eq (analyze root options) rfl
  refine ⟨components, consistent, ?_, ?_, ?_, ?_⟩
  · refine List.flatMap_eq_nil_iff.mpr fun c member => ?_
    exact Component.problems_eq_nil (components c member).fit
  · rw [primary, Option.or_eq_none_iff, List.head?_eq_none_iff]
    constructor
    · exact fun absent => absent.2
    · intro empty
      rw [empty]
      exact ⟨rfl, rfl⟩
  · intro c chosen
    rw [primary, Option.or_eq_some_iff] at chosen
    rcases chosen with own | ⟨-, first⟩
    · exact List.mem_of_find?_eq_some own
    · exact List.mem_of_head? first
  · intro c chosen isReExport
    rw [primary, Option.or_eq_some_iff] at chosen
    rcases chosen with own | ⟨none, -⟩
    · have kept := List.find?_some own
      simp [isReExport] at kept
    · intro d member
      simpa using List.find?_eq_none.mp none d member

/-- A text with content that parses is analyzed. -/
theorem readSource_of_parsed {text : String} {root : Tree} (parsed : parse? text = some root)
    (content : Text.stripChars text.toList ≠ []) (options : ReadOptions) (path : Option String) :
    readSource text options path = .ok (analyze root options) := by
  rw [readSource, if_neg (by simpa using content), parsed]

/-- A text that parses stands for its tree, or it is blank. -/
theorem eq_analyze_of_read {text : String} {root : Tree} {options : ReadOptions} {path : Option String}
    {source : ParsedSource} (parsed : parse? text = some root)
    (read : readSource text options path = .ok source) :
    source.components = [] ∨ source = analyze root options := by
  rw [readSource] at read
  split at read
  · obtain rfl := Except.ok.inj read
    exact .inl rfl
  · rw [parsed] at read
    exact .inr (Except.ok.inj read).symm

theorem readSource_ok {text : String} {options : ReadOptions} {path : Option String} {parsed : ParsedSource}
    (read : readSource text options path = .ok parsed) : parsed.WellFormed := by
  rw [readSource] at read
  split at read
  · obtain rfl := Except.ok.inj read
    refine ⟨?_, ?_, rfl, by simp [ParsedSource.primary?], ?_, ?_⟩
    all_goals
      intro x member
      cases member
  · split at read
    · obtain rfl := Except.ok.inj read
      exact analyze_wellFormed _ options
    · cases read

theorem readSource_error {text : String} {options : ReadOptions} {path : Option String} {report : Report}
    (read : readSource text options path = .error report) :
    report.kind = .sourceSyntax ∧ parse? text = none := by
  rw [readSource] at read
  split at read
  · cases read
  · split at read
    · cases read
    · rename_i unparsed
      obtain rfl := Except.error.inj read
      exact ⟨rfl, unparsed⟩

/-- Reading a source gives a well-formed result, or the source does not parse. -/
theorem readSource_wellFormed (text : String) (options : ReadOptions) (path : Option String) :
    (∃ parsed, readSource text options path = .ok parsed ∧ parsed.WellFormed ∧ parsed.Accepted) ∨
      ∃ report, readSource text options path = .error report ∧ report.kind = .sourceSyntax ∧
        parse? text = none := by
  cases read : readSource text options path with
  | ok parsed =>
    have wellFormed := readSource_ok read
    exact .inl ⟨parsed, rfl, wellFormed, wellFormed.accepted⟩
  | error report => exact .inr ⟨report, rfl, readSource_error read⟩

end Analysis

end Recast
