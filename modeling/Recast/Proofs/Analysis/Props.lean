import Recast.Analysis.Props
import Recast.Proofs.Analysis.Note

/-!
# Props that are read fit their source

A prop is marked as a variant only if a configuration of the source has an axis of its name, and as a
state only together with the labels of the state. Props come from members of types, from axes, from
patterns and from the catalog, and are completed afterwards: each of these steps keeps the props fit.
-/

set_option autoImplicit false

namespace Recast

/-- A prop whose marks are backed by a configuration and by labels. -/
structure Property.Fits (configs : Assoc VariantConfig) (p : Property) : Prop where
  declared : p.isVariant = true → ∃ entry ∈ configs, entry.2.hasAxis p.name = true
  labelled : p.isState = true → p.stateLabels.isSome = true

namespace Property

theorem check_eq_ok_iff (p : Property) :
    p.check = .ok p ↔ (p.isState = true → p.stateLabels.isSome = true) := by
  rw [check]
  cases p.isState <;> cases p.stateLabels <;> simp

variable {configs : Assoc VariantConfig} {p q : Property}

theorem Fits.of_unmarked (plain : p.isVariant = false) (stateless : p.isState = false) :
    p.Fits configs := by
  constructor
  · intro marked
    rw [plain] at marked
    cases marked
  · intro marked
    rw [stateless] at marked
    cases marked

/-- Only the name and the marks of a prop matter. -/
theorem Fits.congr (fits : p.Fits configs) (name : q.name = p.name) (isVariant : q.isVariant = p.isVariant)
    (isState : q.isState = p.isState) (labels : q.stateLabels = p.stateLabels) : q.Fits configs := by
  constructor
  · rw [name, isVariant]
    exact fits.declared
  · rw [isState, labels]
    exact fits.labelled

end Property

/-- Props that all fit. -/
def AllFit (configs : Assoc VariantConfig) (props : List Property) : Prop := ∀ p ∈ props, p.Fits configs

namespace Analysis

open Recast.Tsx

theorem allFit_nil {configs : Assoc VariantConfig} : AllFit configs [] := by
  intro p member
  cases member

theorem allFit_append {configs : Assoc VariantConfig} {ps qs : List Property} :
    AllFit configs (ps ++ qs) ↔ AllFit configs ps ∧ AllFit configs qs :=
  List.forall_mem_append

/-- The configuration a component calls is one of its source. -/
def VariantScope.Known (scope : VariantScope) : Prop :=
  ∀ c, scope.own = some c → ∃ entry ∈ scope.configs, entry.2 = c

theorem known_of_get? (configs : Assoc VariantConfig) (name : Option String) :
    VariantScope.Known ⟨configs, name.bind configs.get?⟩ := by
  intro c called
  obtain ⟨key, -, listed⟩ := Option.bind_eq_some_iff.mp called
  exact ⟨_, Assoc.mem_of_get? listed, rfl⟩

section Scope

variable {scope : VariantScope} (known : scope.Known)

include known

theorem markVariant_fits {p : Property} (fits : p.Fits scope.configs) :
    (markVariant scope.own p).Fits scope.configs := by
  rw [markVariant]
  split
  · exact fits
  · rename_i c chosen
    obtain ⟨called, hasAxis⟩ := Option.filter_eq_some_iff.mp chosen
    obtain ⟨entry, member, rfl⟩ := known c called
    exact ⟨fun _ => ⟨entry, member, hasAxis⟩, fits.labelled⟩

theorem addVariantAxes_fits (clause : String) {props : List Property} (fit : AllFit scope.configs props) :
    AllFit scope.configs (addVariantAxes scope clause props) := by
  rw [addVariantAxes]
  split
  · exact fit
  · rename_i name _
    split
    · exact fit
    · rename_i config found
      have listed : ∃ entry ∈ scope.configs, entry.2 = config := by
        rw [Option.orElse_eq_orElse, Option.orElse_eq_or, Option.or_eq_some_iff] at found
        rcases found with byName | ⟨-, own⟩
        · exact ⟨_, Assoc.mem_of_get? byName, rfl⟩
        · exact known config own
      obtain ⟨entry, member, rfl⟩ := listed
      refine allFit_append.mpr ⟨fit, ?_⟩
      intro p added
      obtain ⟨axis, missing, rfl⟩ := List.mem_map.mp added
      have hasAxis : entry.2.hasAxis axis = true :=
        Assoc.has_iff_mem_keys.mpr (List.mem_filter.mp missing).1
      exact ⟨fun _ => ⟨entry, member, hasAxis⟩, fun marked => by cases marked⟩

/-! ## Declared types -/

theorem signatureProp?_fits {before : Option Tree} {t : Tree} {p : Property}
    (signed : signatureProp? scope before t = some p) : p.Fits scope.configs := by
  rw [signatureProp?] at signed
  obtain ⟨name, -, same⟩ := Option.bind_eq_some_iff.mp signed
  obtain rfl := Option.some.inj same
  exact markVariant_fits known (.of_unmarked rfl rfl)

theorem memberProps_fits (before : Option Tree) (members : List Tree) :
    AllFit scope.configs (memberProps scope before members) := by
  induction members generalizing before with
  | nil => exact allFit_nil
  | cons t ts ih =>
    rw [memberProps]
    refine allFit_append.mpr ⟨?_, ih _⟩
    split
    · intro p member
      exact signatureProp?_fits known (Option.mem_toList.mp member)
    · exact allFit_nil

theorem interfaceProps_fits (t : Tree) : AllFit scope.configs (interfaceProps scope t) := by
  have own : AllFit scope.configs (((t.field? .body).map (objectTypeProps scope)).getD []) := by
    cases t.field? .body with
    | none => exact allFit_nil
    | some body => exact memberProps_fits known none body.children
  exact List.foldlRecOn _ _ own fun props fit clause _ => addVariantAxes_fits known clause.text fit

theorem aliasProps_fits (t : Tree) : AllFit scope.configs (aliasProps scope t) := by
  rw [aliasProps]
  split
  · exact allFit_nil
  · refine List.foldlRecOn _ _ allFit_nil fun props fit part _ => ?_
    split
    · exact allFit_append.mpr ⟨fit, memberProps_fits known _ part.children⟩
    · split
      · exact addVariantAxes_fits known part.text fit
      · exact fit

theorem declarationProps_fits (t : Tree) : AllFit scope.configs (declarationProps scope t) := by
  rw [declarationProps]
  split
  · exact interfaceProps_fits known t
  · exact aliasProps_fits known t

/-! ## Destructured parameters -/

omit known in
theorem bareProp?_unmarked {entry : Tree} {p : Property} (named : bareProp? entry = some p) :
    p.isVariant = false ∧ p.isState = false := by
  rw [bareProp?] at named
  split at named
  · obtain rfl := Option.some.inj named
    exact ⟨rfl, rfl⟩
  · obtain rfl := Option.some.inj named
    exact ⟨rfl, rfl⟩
  · obtain ⟨name, -, same⟩ := Option.bind_eq_some_iff.mp named
    obtain rfl := Option.some.inj same
    exact ⟨rfl, rfl⟩
  · cases named

theorem entryProp?_fits {entry : Tree} {p : Property} (taken : entryProp? scope entry = some p) :
    p.Fits scope.configs := by
  rw [entryProp?] at taken
  obtain ⟨q, named, rest⟩ := Option.bind_eq_some_iff.mp taken
  obtain ⟨-, -, same⟩ := Option.bind_eq_some_iff.mp rest
  obtain rfl := Option.some.inj same
  obtain ⟨plain, stateless⟩ := bareProp?_unmarked named
  refine markVariant_fits known ?_
  split
  · exact .of_unmarked plain stateless
  · exact .of_unmarked plain stateless

theorem patternProps_fits (pattern : Tree) : AllFit scope.configs (patternProps scope pattern) := by
  rw [patternProps]
  split
  · intro p member
    obtain ⟨entry, -, taken⟩ := List.mem_filterMap.mp member
    exact entryProp?_fits known taken
  · exact allFit_nil

end Scope

theorem applyInlineTypes_fits (scope : VariantScope) (param : Tree) {props : List Property}
    (fit : AllFit scope.configs props) : AllFit scope.configs (applyInlineTypes scope param props) := by
  intro q member
  obtain ⟨p, old, rfl⟩ := List.mem_map.mp member
  split
  · exact fit p old
  · exact (fit p old).congr rfl rfl rfl rfl

/-! ## Primitives and state -/

theorem addPrimitiveProps_fits {configs : Assoc VariantConfig} (component : String)
    (propsType : Option String) (namespaces : Assoc String) {props : List Property}
    (fit : AllFit configs props) :
    Yields (AllFit configs) (addPrimitiveProps component propsType namespaces props) := by
  rw [addPrimitiveProps]
  split
  · exact Yields.pure fit
  · dsimp only
    split
    · exact Yields.after fun _ => Yields.pure fit
    · refine Yields.pure (allFit_append.mpr ⟨fit, ?_⟩)
      intro p added
      obtain ⟨entry, -, rfl⟩ := List.mem_map.mp added
      exact .of_unmarked rfl rfl

theorem markState_fits {configs : Assoc VariantConfig} (pattern : StatePattern) {p : Property}
    (fits : p.Fits configs) : (markState pattern p).Fits configs := by
  rw [markState]
  split
  · exact ⟨fits.declared, fun _ => rfl⟩
  · split
    · exact fits.congr rfl rfl rfl rfl
    · exact fits

theorem detectState_fits {configs : Assoc VariantConfig} (patterns : List StatePattern)
    {props : List Property} (fit : AllFit configs props) : AllFit configs (detectState patterns props).1 := by
  rw [detectState]
  split
  · exact fit
  · intro q member
    obtain ⟨p, old, rfl⟩ := List.mem_map.mp member
    exact markState_fits _ (fit p old)

/-! ## All props -/

section Request

variable {req : PropsRequest} (known : req.scope.Known)

include known

theorem parameterProps_fits (params : List Tree) :
    Yields (AllFit req.scope.configs) (parameterProps req params) := by
  refine addPrimitiveProps_fits _ _ _ ?_
  split
  · exact allFit_nil
  · exact applyInlineTypes_fits _ _ (patternProps_fits known _)

theorem ownProps_fits (root : Tree) : Yields (AllFit req.scope.configs) (ownProps root req) := by
  have declared : ∀ d : Option Tree,
      AllFit req.scope.configs ((d.map (declarationProps req.scope)).getD []) := by
    intro d
    cases d with
    | none => exact allFit_nil
    | some t => exact declarationProps_fits known t
  rw [ownProps]
  split
  · split
    · exact parameterProps_fits known _
    · exact Yields.pure (declared _)
  · exact Yields.pure (declared _)

theorem anyProps_fits (root : Tree) : AllFit req.scope.configs (anyProps root req.scope) := by
  rw [anyProps]
  generalize (typeDeclarations root).filter _ = types
  cases found : (types.map (declarationProps req.scope)).find? (!·.isEmpty) with
  | none => exact allFit_nil
  | some props =>
    obtain ⟨t, -, rfl⟩ := List.mem_map.mp (List.mem_of_find?_eq_some found)
    exact declarationProps_fits known t

theorem collectProps_fits (root : Tree) : Yields (AllFit req.scope.configs) (collectProps root req) := by
  refine (ownProps_fits known root).bind fun props fit => Yields.pure ?_
  split
  · exact anyProps_fits known root
  · exact fit

/-- The props of a component fit the configurations of its source. -/
theorem propsOf_fits (root : Tree) :
    Yields (fun found => AllFit req.scope.configs found.1) (propsOf root req) := by
  refine (collectProps_fits known root).bind fun props fit => ?_
  have bound : ∀ renamed : Assoc String, AllFit req.scope.configs
      (props.map fun p => { p with localName := p.localName <|> renamed.get? p.name }) := by
    intro renamed q member
    obtain ⟨p, old, rfl⟩ := List.mem_map.mp member
    exact (fit p old).congr rfl rfl rfl rfl
  refine Yields.warned ?_ _ _
  exact Yields.pure (detectState_fits _ (bound _))

end Request

end Analysis

end Recast
