import Mathlib.Data.List.Induction
import Recast.Proofs.Analysis.Source

/-!
# Props that are taken out

A component takes props out of its first parameter, each into a variable. Which props it is read to have
depends on the type declared for it: if that has any, its members are all there are. A prop it does have
goes to the variable it was taken out into, wherever it was found.
-/

set_option autoImplicit false

namespace Recast

namespace Assoc

variable {α : Type}

theorem get?_cons (key : String) (entry : String × α) (rest : Assoc α) :
    get? key (entry :: rest) = if key = entry.1 then some entry.2 else get? key rest := by
  by_cases same : key = entry.1
  · rw [get?, List.lookup_cons, beq_iff_eq.mpr same, if_pos same]
  · rw [get?, List.lookup_cons, beq_eq_false_iff_ne.mpr same, if_neg same]
    rfl

theorem get?_put (key other : String) (value : α) (table : Assoc α) :
    get? key (put other value table) = if key = other then some value else get? key table := by
  induction table with
  | nil => rw [put, get?_cons]
  | cons entry rest ih =>
    rw [put]
    by_cases present : entry.1 = other
    · rw [if_pos present, get?_cons, get?_cons, present]
      split <;> rfl
    · rw [if_neg present, get?_cons, get?_cons, ih]
      by_cases here : key = entry.1
      · rw [if_pos here, if_pos here, if_neg (here ▸ present)]
      · rw [if_neg here, if_neg here]

/-- Of several entries with a key the last one counts. -/
theorem get?_ofEntries (key : String) (entries : List (String × α)) :
    get? key (ofEntries entries) = get? key entries.reverse := by
  induction entries using List.reverseRecOn with
  | nil => rfl
  | append_singleton entries entry ih =>
    rw [List.reverse_concat, get?_cons, ← ih, ofEntries, List.foldl_concat, get?_put]
    rfl

theorem get?_ofEntries_of_unique {key : String} {value : α} {entries : List (String × α)}
    (member : (key, value) ∈ entries) (unique : ∀ other, (key, other) ∈ entries → other = value) :
    get? key (ofEntries entries) = some value := by
  cases found : get? key (ofEntries entries) with
  | none =>
    rw [get?_ofEntries, get?, List.lookup_eq_none_iff] at found
    simpa using found _ (List.mem_reverse.mpr member)
  | some other =>
    rw [get?_ofEntries] at found
    rw [unique other (List.mem_reverse.mp (mem_of_get? found))]

theorem get?_ofEntries_of_absent {key : String} {entries : List (String × α)}
    (absent : ∀ value, (key, value) ∉ entries) : get? key (ofEntries entries) = none := by
  cases found : get? key (ofEntries entries) with
  | none => rfl
  | some value =>
    rw [get?_ofEntries] at found
    exact absurd (List.mem_reverse.mp (mem_of_get? found)) (absent value)

end Assoc

/-- What a prop is called outside of a component and inside. -/
def Property.label (p : Property) : String × Option String := (p.name, p.localName)

namespace Analysis

open Recast.Tsx

/-! ## Patterns -/

/-- The variable that an entry of a pattern is given to, its default apart. -/
def boundName? (entry : Tree) : Option String :=
  let bound := (entry.field? .value).bind fun value =>
    if value.kind = .defaultedPattern then value.field? .left else some value
  (bound.filter (·.kind = .identifier)).map Tree.text

/-- The prop that an entry of a pattern takes out, and the variable it goes to. -/
def taken? (entry : Tree) : Option (String × String) :=
  match entry.kind with
  | .shorthandPattern => some (entry.text, entry.text)
  | .defaultedShorthand => some (entry.fieldText .left, entry.fieldText .left)
  | .pairPattern => do
    let key ← (entry.field? .key).bind Tree.propertyKey?
    let var ← boundName? entry
    return (key, var)
  | _ => none

/-- A pattern takes a prop out into a variable, and into no other. -/
structure Takes (pattern : Tree) (prop var : String) : Prop where
  object : pattern.kind = .objectPattern
  taken : (prop, var) ∈ pattern.parts.filterMap taken?
  once : ∀ other, (prop, other) ∈ pattern.parts.filterMap taken? → other = var
  prop_ne : prop ≠ ""
  var_ne : var ≠ ""

/-- A variable is recorded only where it is not called like its prop. -/
def alias? (prop var : String) : Option String := if var = prop then none else some var

theorem entryLocal?_eq (entry : Tree) :
    entryLocal? entry =
      (boundName? entry).filter fun var => some var ≠ (entry.field? .key).bind Tree.propertyKey? := by
  have named : ∀ (key : Option String) (bound : Tree),
      (do
        guard (bound.kind = .identifier)
        guard (some bound.text ≠ key)
        return bound.text) =
      (((some bound).filter (·.kind = .identifier)).map Tree.text).filter fun var => some var ≠ key := by
    intro key bound
    by_cases isName : bound.kind = .identifier
    · by_cases same : some bound.text = key
      · subst same
        simp [guard, isName, Option.filter]
      · simp [guard, isName, same, Option.filter]
    · simp [guard, isName, Option.filter]
  rw [entryLocal?, boundName?]
  cases entry.field? .value with
  | none => rfl
  | some value =>
    simp only [Option.bind_eq_bind, Option.bind_some]
    by_cases defaulted : value.kind = .defaultedPattern
    · rw [if_pos defaulted, if_pos defaulted]
      cases value.field? .left with
      | none => rfl
      | some bound => exact named _ bound
    · rw [if_neg defaulted, if_neg defaulted]
      exact named _ value

theorem entryLocal?_of_pair {entry : Tree} {key : String} (isPair : entry.kind = .pairPattern)
    (named : (entry.field? .key).bind Tree.propertyKey? = some key) {var : String} :
    entryLocal? entry = some var ↔ taken? entry = some (key, var) ∧ var ≠ key := by
  rw [entryLocal?_eq, taken?, isPair, named, Option.filter_eq_some_iff]
  cases boundName? entry <;> simp

/-! ## What an entry is read to -/

theorem localName_of_bareProp? {entry : Tree} {p : Property} (read : bareProp? entry = some p) {var : String}
    (recorded : p.localName = some var) : taken? entry = some (p.name, var) ∧ var ≠ p.name := by
  rw [bareProp?] at read
  split at read
  · obtain rfl := Option.some.inj read
    cases recorded
  · obtain rfl := Option.some.inj read
    cases recorded
  · rename_i isPair
    obtain ⟨key, named, same⟩ := Option.bind_eq_some_iff.mp read
    obtain rfl := Option.some.inj same
    exact (entryLocal?_of_pair isPair named).mp recorded
  · cases read

theorem exists_bareProp? {entry : Tree} {prop var : String} (taken : taken? entry = some (prop, var)) :
    ∃ p, bareProp? entry = some p ∧ p.name = prop := by
  rw [taken?] at taken
  split at taken
  · rename_i isShorthand
    obtain ⟨rfl, rfl⟩ := Prod.mk.inj (Option.some.inj taken)
    exact ⟨_, by rw [bareProp?, isShorthand], rfl⟩
  · rename_i isDefaulted
    obtain ⟨rfl, rfl⟩ := Prod.mk.inj (Option.some.inj taken)
    exact ⟨_, by rw [bareProp?, isDefaulted], rfl⟩
  · rename_i isPair
    obtain ⟨key, named, rest⟩ := Option.bind_eq_some_iff.mp taken
    obtain ⟨_, -, same⟩ := Option.bind_eq_some_iff.mp rest
    obtain ⟨rfl, rfl⟩ := Prod.mk.inj (Option.some.inj same)
    refine ⟨{ name := key, defaultValue := entryDefault? entry, localName := entryLocal? entry }, ?_, rfl⟩
    rw [bareProp?, isPair, named]
    rfl
  · cases taken

/-- An entry that gives its variable another name than its prop has is a pair. -/
theorem pair_of_taken {entry : Tree} {prop var : String} (taken : taken? entry = some (prop, var))
    (renamed : var ≠ prop) :
    entry.kind = .pairPattern ∧ (entry.field? .key).bind Tree.propertyKey? = some prop := by
  rw [taken?] at taken
  split at taken
  · obtain ⟨rfl, rfl⟩ := Prod.mk.inj (Option.some.inj taken)
    exact absurd rfl renamed
  · obtain ⟨rfl, rfl⟩ := Prod.mk.inj (Option.some.inj taken)
    exact absurd rfl renamed
  · rename_i isPair
    obtain ⟨key, named, rest⟩ := Option.bind_eq_some_iff.mp taken
    obtain ⟨_, -, same⟩ := Option.bind_eq_some_iff.mp rest
    obtain ⟨rfl, rfl⟩ := Prod.mk.inj (Option.some.inj same)
    exact ⟨isPair, named⟩
  · cases taken

theorem renamedEntries_get? {pattern : Tree} {prop var : String} (takes : Takes pattern prop var) :
    (renamedEntries pattern).get? prop = alias? prop var := by
  -- The table is made from the pairs that rename, and these are entries that take something out.
  have recorded : ∀ name,
      (prop, name) ∈ (pattern.parts.filter (·.kind = .pairPattern)).filterMap (fun entry => do
        let bound ← (entryLocal? entry).filter (· ≠ "")
        let key ← (entry.field? .key).bind Tree.propertyKey?
        return (key, bound)) ↔
      name ≠ prop ∧ name ≠ "" ∧ (prop, name) ∈ pattern.parts.filterMap taken? := by
    intro name
    rw [List.mem_filterMap, List.mem_filterMap]
    constructor
    · rintro ⟨entry, member, read⟩
      obtain ⟨member, isPair⟩ := List.mem_filter.mp member
      obtain ⟨bound, named, rest⟩ := Option.bind_eq_some_iff.mp read
      obtain ⟨key, isKey, same⟩ := Option.bind_eq_some_iff.mp rest
      obtain ⟨rfl, rfl⟩ := Prod.mk.inj (Option.some.inj same)
      obtain ⟨named, nonempty⟩ := Option.filter_eq_some_iff.mp named
      obtain ⟨taken, other⟩ := (entryLocal?_of_pair (by simpa using isPair) isKey).mp named
      exact ⟨other, by simpa using nonempty, entry, member, taken⟩
    · rintro ⟨other, nonempty, entry, member, taken⟩
      obtain ⟨isPair, isKey⟩ := pair_of_taken taken other
      refine ⟨entry, List.mem_filter.mpr ⟨member, by simpa using isPair⟩, ?_⟩
      rw [(entryLocal?_of_pair isPair isKey).mpr ⟨taken, other⟩, isKey]
      simp [Option.filter, nonempty]
  rw [renamedEntries, if_neg (by simp [takes.object]), alias?]
  split
  · rename_i same
    refine Assoc.get?_ofEntries_of_absent fun name member => ?_
    obtain ⟨other, -, taken⟩ := (recorded name).mp member
    exact other ((takes.once name taken).trans same)
  · rename_i other
    refine Assoc.get?_ofEntries_of_unique ((recorded var).mpr ⟨other, takes.var_ne, takes.taken⟩) ?_
    intro name member
    exact takes.once name ((recorded name).mp member).2.2

/-! ## Declared types -/

/-- Types say nothing about variables. -/
def Unaliased (props : List Property) : Prop := ∀ p ∈ props, p.localName = none

theorem unaliased_nil : Unaliased [] := by
  intro p member
  cases member

theorem unaliased_append {ps qs : List Property} : Unaliased (ps ++ qs) ↔ Unaliased ps ∧ Unaliased qs :=
  List.forall_mem_append

theorem markVariant_label (config : Option VariantConfig) (p : Property) :
    (markVariant config p).label = p.label := by
  rw [markVariant]
  split <;> rfl

theorem memberProps_unaliased (scope : VariantScope) (before : Option Tree) (members : List Tree) :
    Unaliased (memberProps scope before members) := by
  induction members generalizing before with
  | nil => exact unaliased_nil
  | cons t ts ih =>
    rw [memberProps]
    refine unaliased_append.mpr ⟨?_, ih _⟩
    split
    · intro p member
      obtain ⟨name, -, same⟩ := Option.bind_eq_some_iff.mp (Option.mem_toList.mp member)
      obtain rfl := Option.some.inj same
      exact congrArg Prod.snd (markVariant_label scope.own _)
    · exact unaliased_nil

theorem addVariantAxes_unaliased (scope : VariantScope) (clause : String) {props : List Property}
    (unaliased : Unaliased props) : Unaliased (addVariantAxes scope clause props) := by
  rw [addVariantAxes]
  split
  · exact unaliased
  · split
    · exact unaliased
    · refine unaliased_append.mpr ⟨unaliased, ?_⟩
      intro p added
      obtain ⟨axis, -, rfl⟩ := List.mem_map.mp added
      rfl

theorem declarationProps_unaliased (scope : VariantScope) (t : Tree) :
    Unaliased (declarationProps scope t) := by
  rw [declarationProps]
  split
  · rw [interfaceProps]
    refine List.foldlRecOn _ _ ?_ fun props unaliased clause _ => addVariantAxes_unaliased scope _ unaliased
    cases t.field? .body with
    | none => exact unaliased_nil
    | some body => exact memberProps_unaliased scope none body.children
  · rw [aliasProps]
    split
    · exact unaliased_nil
    · refine List.foldlRecOn _ _ unaliased_nil fun props unaliased part _ => ?_
      split
      · exact unaliased_append.mpr ⟨unaliased, memberProps_unaliased scope none part.children⟩
      · split
        · exact addVariantAxes_unaliased scope part.text unaliased
        · exact unaliased

/-- The props of the type that is declared for a component. -/
def declaredProps (root : Tree) (scope : VariantScope) (component : String) : List Property :=
  let declared := (typeDeclarations root).find? fun d => d.fieldText .name == component ++ "Props"
  (declared.map (declarationProps scope)).getD []

theorem declaredProps_unaliased (root : Tree) (scope : VariantScope) (component : String) :
    Unaliased (declaredProps root scope component) := by
  rw [declaredProps]
  cases (typeDeclarations root).find? _ with
  | none => exact unaliased_nil
  | some t => exact declarationProps_unaliased scope t

/-! ## Parameters -/

theorem entryProp?_label (scope : VariantScope) (entry : Tree) :
    (entryProp? scope entry).map Property.label =
      ((bareProp? entry).filter fun p => p.name ≠ "" && p.name ≠ "children").map Property.label := by
  rw [entryProp?]
  cases bareProp? entry with
  | none => rfl
  | some p =>
    by_cases kept : (p.name ≠ "" && p.name ≠ "children") = true
    · rw [Option.filter_some, if_pos kept]
      simp only [Option.bind_eq_bind, Option.bind_some, guard, if_pos kept]
      have typed : (if p.name == "className" || p.name == "class" then { p with type := "string" }
          else p).label = p.label := by
        split <;> rfl
      exact congrArg some ((markVariant_label scope.own _).trans typed)
    · rw [Option.filter_some, if_neg kept]
      simp only [Option.bind_eq_bind, Option.bind_some, guard, if_neg kept]
      rfl

/-- A prop that is recorded with a variable is recorded with the one it is taken out into. -/
def Agrees (prop var : String) (props : List Property) : Prop :=
  ∀ p ∈ props, p.name = prop → p.localName = none ∨ p.localName = alias? prop var

section Taken

variable {pattern : Tree} {prop var : String} (takes : Takes pattern prop var)

theorem agrees_of_unaliased {props : List Property} (unaliased : Unaliased props) : Agrees prop var props :=
  fun p member _ => .inl (unaliased p member)

theorem agrees_append {ps qs : List Property} :
    Agrees prop var (ps ++ qs) ↔ Agrees prop var ps ∧ Agrees prop var qs :=
  List.forall_mem_append

include takes

theorem bareProp?_agrees {entry : Tree} (member : entry ∈ pattern.parts) {p : Property}
    (read : bareProp? entry = some p) (called : p.name = prop) :
    p.localName = none ∨ p.localName = alias? prop var := by
  cases recorded : p.localName with
  | none => exact .inl rfl
  | some name =>
    obtain ⟨taken, other⟩ := localName_of_bareProp? read recorded
    rw [called] at taken other
    have same : name = var := takes.once name (List.mem_filterMap.mpr ⟨entry, member, taken⟩)
    rw [alias?, if_neg (same ▸ other), same]
    exact .inr rfl

theorem patternProps_agrees (scope : VariantScope) : Agrees prop var (patternProps scope pattern) := by
  rw [patternProps, if_pos takes.object]
  intro p member called
  obtain ⟨entry, part, read⟩ := List.mem_filterMap.mp member
  have labelled := entryProp?_label scope entry
  rw [read, Option.map_some] at labelled
  obtain ⟨q, bare, same⟩ := Option.map_eq_some_iff.mp labelled.symm
  obtain ⟨name, recorded⟩ := Prod.mk.inj same
  rw [← recorded]
  exact bareProp?_agrees takes part (Option.filter_eq_some_iff.mp bare).1 (name.trans called)

theorem mem_patternProps (scope : VariantScope) (ordinary : prop ≠ "children") :
    prop ∈ (patternProps scope pattern).map (·.name) := by
  rw [patternProps, if_pos takes.object]
  obtain ⟨entry, part, taken⟩ := List.mem_filterMap.mp takes.taken
  obtain ⟨q, bare, called⟩ := exists_bareProp? taken
  have labelled := entryProp?_label scope entry
  rw [bare, Option.filter_some, if_pos (by simp [called, takes.prop_ne, ordinary])] at labelled
  obtain ⟨p, read, same⟩ := Option.map_eq_some_iff.mp labelled
  refine List.mem_map.mpr ⟨p, List.mem_filterMap.mpr ⟨entry, part, read⟩, ?_⟩
  exact (Prod.mk.inj same).1.trans called

end Taken

/-! ## All props -/

theorem map_label_applyInlineTypes (scope : VariantScope) (param : Tree) (props : List Property) :
    (applyInlineTypes scope param props).map Property.label = props.map Property.label := by
  rw [applyInlineTypes, List.map_map]
  refine List.map_congr_left fun p _ => ?_
  rw [Function.comp_apply]
  split <;> rfl

theorem map_label_detectState (patterns : List StatePattern) (props : List Property) :
    (detectState patterns props).1.map Property.label = props.map Property.label := by
  rw [detectState]
  split
  · rfl
  · rw [List.map_map]
    refine List.map_congr_left fun p _ => ?_
    rw [Function.comp_apply, markState]
    split
    · rfl
    · split <;> rfl

/-- The catalog adds props and changes none. -/
theorem addPrimitiveProps_adds (component : String) (propsType : Option String) (namespaces : Assoc String)
    (props : List Property) :
    Yields (fun all => ∃ more, all = props ++ more ∧ Unaliased more)
      (addPrimitiveProps component propsType namespaces props) := by
  rw [addPrimitiveProps]
  split
  · exact Yields.pure ⟨[], by simp, unaliased_nil⟩
  · dsimp only
    split
    · exact Yields.after fun _ => Yields.pure ⟨[], by simp, unaliased_nil⟩
    · refine Yields.pure ⟨_, rfl, ?_⟩
      intro p added
      obtain ⟨entry, -, rfl⟩ := List.mem_map.mp added
      rfl

theorem Agrees.congr {prop var : String} {ps qs : List Property} (agrees : Agrees prop var ps)
    (same : qs.map Property.label = ps.map Property.label) : Agrees prop var qs := by
  intro q member called
  have listed : q.label ∈ ps.map Property.label := same ▸ List.mem_map_of_mem member
  obtain ⟨p, old, labelled⟩ := List.mem_map.mp listed
  obtain ⟨name, recorded⟩ := Prod.mk.inj labelled
  rw [← recorded]
  exact agrees p old (name.trans called)

theorem map_name_congr {ps qs : List Property} (same : qs.map Property.label = ps.map Property.label) :
    qs.map (·.name) = ps.map (·.name) := by
  have names : ∀ props : List Property, props.map (·.name) = (props.map Property.label).map (·.1) := by
    intro props
    rw [List.map_map]
    rfl
  rw [names, names, same]

/-- The pattern that a function takes its props out by. -/
def firstPattern? (function : Tree) : Option Tree := (parametersOf function).head?.map parameterPattern

theorem ownProps_eq_match (root : Tree) (req : PropsRequest) :
    ownProps root req = match req.function with
      | some f => if (declaredProps root req.scope req.component).isEmpty then parameterProps req (parametersOf f)
        else return declaredProps root req.scope req.component
      | none => return declaredProps root req.scope req.component :=
  rfl

/-- How a prop is found that is taken out into a variable, given the props of the type declared for the
component. -/
structure FoundAs (declared : List Property) (prop var : String) (props : List Property) : Prop where
  listed : prop ∈ props.map (·.name) ↔ declared = [] ∨ prop ∈ declared.map (·.name)
  agrees : Agrees prop var props

/-- The same once all variables are recorded. -/
structure ReadAs (declared : List Property) (prop var : String) (props : List Property) : Prop where
  listed : prop ∈ props.map (·.name) ↔ declared = [] ∨ prop ∈ declared.map (·.name)
  called : ∀ p ∈ props, p.name = prop → p.localName = alias? prop var

theorem readAs_detectState {declared props : List Property} {prop var : String}
    (found : FoundAs declared prop var props) (patterns : List StatePattern) {renamed : Assoc String}
    (recorded : renamed.get? prop = alias? prop var) :
    ReadAs declared prop var (detectState patterns
      (props.map fun p => { p with localName := p.localName <|> renamed.get? p.name })).1 := by
  have same := map_label_detectState patterns
    (props.map fun p => { p with localName := p.localName <|> renamed.get? p.name })
  constructor
  · rw [map_name_congr same, List.map_map]
    exact found.listed
  · intro q member called
    have labelled := List.mem_map_of_mem (f := Property.label) member
    rw [same, List.map_map] at labelled
    obtain ⟨p, old, label⟩ := List.mem_map.mp labelled
    obtain ⟨name, localName⟩ := Prod.mk.inj label
    have called' : p.name = prop := name.trans called
    have chosen : (p.localName <|> renamed.get? p.name) = q.localName := localName
    rw [← chosen, called', recorded]
    rcases found.agrees p old called' with absent | present
    · rw [absent]
      rfl
    · rw [present]
      cases alias? prop var <;> rfl

section Request

variable {pattern : Tree} {prop var : String} (takes : Takes pattern prop var) (ordinary : prop ≠ "children")
  {f : Tree} (first : firstPattern? f = some pattern) {req : PropsRequest} (function : req.function = some f)

include takes ordinary first

theorem parameterProps_takes (req : PropsRequest) :
    Yields (fun props => Agrees prop var props ∧ prop ∈ props.map (·.name))
      (parameterProps req (parametersOf f)) := by
  obtain ⟨param, head, rfl⟩ := Option.map_eq_some_iff.mp first
  rw [parameterProps, head]
  have same := map_label_applyInlineTypes req.scope param (patternProps req.scope (parameterPattern param))
  intro noted
  obtain ⟨more, all, unaliased⟩ := addPrimitiveProps_adds req.component req.propsType req.namespaces
    (applyInlineTypes req.scope param (patternProps req.scope (parameterPattern param))) noted
  dsimp only at all ⊢
  rw [all]
  constructor
  · exact agrees_append.mpr ⟨(patternProps_agrees takes req.scope).congr same, agrees_of_unaliased unaliased⟩
  · rw [List.map_append, map_name_congr same]
    exact List.mem_append_left _ (mem_patternProps takes req.scope ordinary)

include function

theorem ownProps_takes (root : Tree) :
    Yields (fun props => props ≠ [] ∧ FoundAs (declaredProps root req.scope req.component) prop var props)
      (ownProps root req) := by
  rw [ownProps_eq_match, function]
  dsimp only
  by_cases undeclared : declaredProps root req.scope req.component = []
  · rw [if_pos (by simp [undeclared])]
    intro noted
    obtain ⟨agrees, listed⟩ := parameterProps_takes takes ordinary first req noted
    refine ⟨?_, iff_of_true listed (.inl undeclared), agrees⟩
    intro empty
    simp [empty] at listed
  · rw [if_neg (by simpa using undeclared)]
    refine Yields.pure ⟨undeclared, ?_, agrees_of_unaliased (declaredProps_unaliased root _ _)⟩
    simp [undeclared]

theorem collectProps_takes (root : Tree) :
    Yields (FoundAs (declaredProps root req.scope req.component) prop var) (collectProps root req) := by
  refine (ownProps_takes takes ordinary first function root).bind fun props ⟨nonempty, found⟩ => ?_
  rw [if_neg (by simpa using nonempty)]
  exact Yields.pure found

/-- The members of the type declared for a component stand for the props it takes out, if there are any. -/
theorem propsOf_takes (root : Tree) :
    Yields (fun found => ReadAs (declaredProps root req.scope req.component) prop var found.1)
      (propsOf root req) := by
  obtain ⟨param, head, same⟩ := Option.map_eq_some_iff.mp first
  have renamed : ((((req.function.map parametersOf).getD []).head?.map fun p =>
      renamedEntries (parameterPattern p)).getD []).get? prop = alias? prop var := by
    rw [function, Option.map_some, Option.getD_some, head, Option.map_some, Option.getD_some, same]
    exact renamedEntries_get? takes
  refine (collectProps_takes takes ordinary first function root).bind fun props found => ?_
  refine Yields.warned ?_ _ _
  exact Yields.pure (readAs_detectState found _ renamed)

end Request

/-! ## Components -/

/-- The function of a component, given as it is or wrapped. -/
def Declared.function? : Declared → Option Tree
  | .reExport _ => none
  | .function f => some f
  | .forwardRef _ render => render

def scopeOf (shared : Shared) (found : Discovered) : VariantScope :=
  ⟨shared.variantConfigs,
    (variantNameFor? found.text shared.variantConfigs.keys).bind shared.variantConfigs.get?⟩

section Component

variable {pattern : Tree} {prop var : String} (takes : Takes pattern prop var) (ordinary : prop ≠ "children")
  {f : Tree} (first : firstPattern? f = some pattern)

include takes ordinary first

theorem build_takes (root : Tree) (shared : Shared) (options : ReadOptions) (found : Discovered)
    (call : Option Tree) :
    Yields (fun c => ReadAs (declaredProps root (scopeOf shared found) found.name) prop var c.props)
      (componentOf.build root shared options found (some f) call) := by
  rw [componentOf.build]
  refine Yields.after fun refForward => Yields.after fun nodes => ?_
  refine Yields.warned ?_ _ _
  exact (propsOf_takes takes ordinary first rfl root).bind fun props read => Yields.pure read

theorem componentOf_takes (root : Tree) (shared : Shared) (options : ReadOptions) {found : Discovered}
    (function : found.declared.function? = some f) :
    Yields (fun c => ReadAs (declaredProps root (scopeOf shared found) found.name) prop var c.props)
      (componentOf root shared options found) := by
  rw [componentOf]
  cases declared : found.declared with
  | reExport target =>
    rw [declared] at function
    cases function
  | function g =>
    rw [declared] at function
    cases function
    exact build_takes takes ordinary first root shared options found none
  | forwardRef call render =>
    rw [declared] at function
    cases function
    exact build_takes takes ordinary first root shared options found (some call)

/-- The props of a component of a tree, for a prop that its function takes out. -/
theorem analyze_takes {options : ReadOptions} {root : Tree} {found : Discovered} {c : Component}
    (listed : (found, c) ∈ (discover root).zip (analyze root options).components)
    (function : found.declared.function? = some f) :
    ReadAs (declaredProps root (scopeOf (analyze root options).shared found) found.name) prop var c.props := by
  have one : ∀ (shared : Shared) (found : Discovered), Yields (fun c => found.declared.function? = some f →
      ReadAs (declaredProps root (scopeOf shared found) found.name) prop var c.props)
      (componentOf root shared options found) := by
    intro shared found noted function
    exact componentOf_takes takes ordinary first root shared options function noted
  have each : Yields (fun built => ∀ found c, (found, c) ∈ (discover root).zip built.2 →
      found.declared.function? = some f →
      ReadAs (declaredProps root (scopeOf built.1 found) found.name) prop var c.props)
      (componentsOf root options) := by
    refine Yields.after fun configs => ?_
    refine (Yields.mapM_forall₂ _ fun found _ => one _ found).bind fun components read => ?_
    exact Yields.pure fun found c listed => (List.forall₂_iff_zip.mp read).2 listed
  exact each [] found c listed function

theorem readSource_takes {text : String} {options : ReadOptions} {path : Option String} {root : Tree}
    {source : ParsedSource} (parsed : parse? text = some root)
    (read : readSource text options path = .ok source)
    {found : Discovered} {c : Component} (listed : (found, c) ∈ (discover root).zip source.components)
    (function : found.declared.function? = some f) :
    ReadAs (declaredProps root (scopeOf source.shared found) found.name) prop var c.props := by
  rcases eq_analyze_of_read parsed read with blank | rfl
  · rw [blank, List.zip_nil_right] at listed
    cases listed
  · exact analyze_takes takes ordinary first listed function

end Component

end Analysis

end Recast
