import Recast.Proofs.Analysis.Taken
import Recast.Proofs.Convert.All

/-!
# Variables of taken props

A script binds the props of its component to variables, and the markup goes on to use the variables of
the source. Here is when a prop that the source takes out into a variable reaches it in the script too.
-/

set_option autoImplicit false

namespace Recast.Generate

open Recast.Markup

/-- A declaration binds a prop to a variable. -/
def Declaration.Binds (d : Declaration) (name var : String) : Prop :=
  ∃ b ∈ d.bindings, b.rest = false ∧ b.name = name ∧ b.localName = var

/-- The name that callers know a prop by. -/
def publicName (prop : String) : String := if prop ∈ classPropNames then "class" else prop

/-- The variable that a declared prop is bound to. -/
def boundTo (p : Property) : String := (p.localName.filter (· ≠ "")).getD p.name

/-! ## Planned props -/

/-- Props that are declared one by one under their own names. -/
def isListed (name : String) : Bool := !classPropNames.contains name && !specialPropNames.contains name

theorem mem_plannedProps {props : List Property} {m : Metadata} {p : Property} :
    p ∈ plannedProps props m ↔ (p ∈ props ∧ isListed p.name = true) ∨
      ∃ config, m.variant = some config ∧ ∃ axis, config.hasAxis axis = true ∧
        (∀ q ∈ props, isListed q.name = true → q.name ≠ axis) ∧ p = axisProp config axis := by
  have listed : p ∈ props.filter (fun p => isListed p.name) ↔ p ∈ props ∧ isListed p.name = true :=
    List.mem_filter
  rw [← listed, plannedProps]
  cases m.variant with
  | none => simp [isListed]
  | some config =>
    rw [List.mem_append, List.mem_map]
    refine or_congr Iff.rfl ?_
    constructor
    · rintro ⟨axis, missing, rfl⟩
      obtain ⟨member, absent⟩ := List.mem_filter.mp missing
      refine ⟨config, rfl, axis, Assoc.has_iff_mem_keys.mpr member, ?_, rfl⟩
      intro q old listed same
      have present : (props.filter fun p => isListed p.name).any (·.name == axis) = true :=
        List.any_eq_true.mpr ⟨q, List.mem_filter.mpr ⟨old, listed⟩, beq_iff_eq.mpr same⟩
      simp only [isListed] at present
      rw [present] at absent
      cases absent
    · rintro ⟨_, ⟨⟩, axis, member, absent, rfl⟩
      refine ⟨axis, List.mem_filter.mpr ⟨Assoc.has_iff_mem_keys.mp member, ?_⟩, rfl⟩
      rw [Bool.not_eq_true', List.any_eq_false]
      intro q kept same
      obtain ⟨old, listed⟩ := List.mem_filter.mp kept
      exact absent q old listed (beq_iff_eq.mp same)

/-- An axis that no listed prop is called like is planned under its own name. -/
theorem exists_planned_axis {props : List Property} {m : Metadata} {name : String}
    (isAxis : m.variant.any (·.hasAxis name) = true)
    (absent : ∀ q ∈ props, isListed q.name = true → q.name ≠ name) :
    ∃ p ∈ plannedProps props m, p.name = name ∧ boundTo p = name := by
  cases chosen : m.variant with
  | none =>
    rw [chosen] at isAxis
    cases isAxis
  | some config =>
    rw [chosen] at isAxis
    exact ⟨_, mem_plannedProps.mpr (.inr ⟨config, chosen, name, isAxis, absent, rfl⟩), rfl, rfl⟩

theorem exists_planned_iff {props : List Property} (m : Metadata) {name var : String}
    (listed : isListed name = true) (called : ∀ p ∈ props, p.name = name → boundTo p = var) :
    (∃ p ∈ plannedProps props m, p.name = name ∧ boundTo p = var) ↔
      name ∈ props.map (·.name) ∨ (m.variant.any (·.hasAxis name) = true ∧ var = name) := by
  constructor
  · rintro ⟨p, planned, rfl, bound⟩
    rcases mem_plannedProps.mp planned with ⟨old, -⟩ | ⟨config, chosen, axis, hasAxis, -, rfl⟩
    · exact .inl (List.mem_map_of_mem old)
    · exact .inr ⟨by rw [chosen]; exact hasAxis, bound.symm⟩
  · intro known
    by_cases present : name ∈ props.map (·.name)
    · obtain ⟨p, old, rfl⟩ := List.mem_map.mp present
      exact ⟨p, mem_plannedProps.mpr (.inl ⟨old, listed⟩), rfl, called p old rfl⟩
    · obtain ⟨isAxis, rfl⟩ := known.resolve_left present
      refine exists_planned_axis isAxis fun q old _ same => ?_
      exact present (same ▸ List.mem_map_of_mem old)

/-- The class is no planned prop, but an axis may be called like it. -/
theorem exists_planned_class_iff (props : List Property) (m : Metadata) {var : String} :
    (∃ p ∈ plannedProps props m, p.name = "class" ∧ boundTo p = var) ↔
      m.variant.any (·.hasAxis "class") = true ∧ var = "class" := by
  have unlisted : isListed "class" = false := by decide
  constructor
  · rintro ⟨p, planned, name, bound⟩
    rcases mem_plannedProps.mp planned with ⟨-, listed⟩ | ⟨config, chosen, axis, hasAxis, -, rfl⟩
    · rw [name, unlisted] at listed
      cases listed
    · obtain rfl : axis = "class" := name
      exact ⟨by rw [chosen]; exact hasAxis, bound.symm⟩
  · rintro ⟨isAxis, rfl⟩
    refine exists_planned_axis isAxis fun q _ listed same => ?_
    rw [same, unlisted] at listed
    cases listed

namespace Svelte

theorem filter_propBinding (c : Component) (props : List Property) (m : Metadata) (o : Options)
    (merges : Bool) :
    (declarations c props m o merges).filter (·.kind = .propBinding) =
      [{ kind := .propBinding, name := "props", bindings := bindings c m (plannedProps props m) }] := by
  rw [← List.perm_singleton, declarations]
  refine ((List.mergeSort_perm _ _).filter _).trans (List.Perm.of_eq ?_)
  have typed : ∀ elementType planned,
      (if o.typescript then [propTypeOf c m planned elementType] else []).filter (·.kind = .propBinding) = [] := by
    intro elementType planned
    split <;> rfl
  simp only [List.filter_append, List.filter_map, Function.comp_def, typed, reduceCtorEq, decide_false,
    List.filter_false, List.map_nil, List.nil_append, List.append_nil]
  rfl

theorem bindingOf_binds (m : Metadata) (p : Property) :
    (bindingOf m p).rest = false ∧ (bindingOf m p).name = p.name ∧ (bindingOf m p).localName = boundTo p := by
  rw [bindingOf]
  split <;> exact ⟨rfl, rfl, rfl⟩

theorem localName_ne_empty (c : Component) {name : String} (nonempty : name ≠ "") :
    localName c name ≠ "" := by
  rw [localName]
  cases found : ((c.findProp? name).bind (·.localName)).filter (· ≠ "") with
  | none => exact nonempty
  | some var => simpa using (Option.filter_eq_some_iff.mp found).2

/-- Besides planned props only the class, the reference and the children are bound. -/
theorem binds_iff (c : Component) (m : Metadata) (planned : List Property) {name var : String}
    (ordinary : name ∉ specialPropNames) :
    (∃ b ∈ bindings c m planned, b.rest = false ∧ b.name = name ∧ b.localName = var) ↔
      (declaresClass c m = true ∧ name = "class" ∧ localName c "className" = var) ∨
        ∃ p ∈ planned, p.name = name ∧ boundTo p = var := by
  have classLocal : ((some (localName c "className")).filter (· ≠ "")).getD "class" =
      localName c "className" := by
    rw [Option.filter_some, if_pos (by simpa using localName_ne_empty c (by decide))]
    rfl
  rw [bindings]
  constructor
  · rintro ⟨b, member, kept, rfl, rfl⟩
    simp only [List.mem_append, List.mem_map, Option.mem_toList, Option.map_eq_some_iff, List.mem_cons,
      List.not_mem_nil, or_false] at member
    rcases member with ((isClass | ⟨p, isPlanned, rfl⟩) | ⟨r, -, rfl⟩) | rfl | rfl
    · by_cases declares : declaresClass c m = true
      · rw [if_pos declares] at isClass
        obtain rfl := List.mem_singleton.mp isClass
        exact .inl ⟨declares, rfl, classLocal.symm⟩
      · rw [if_neg declares] at isClass
        cases isClass
    · obtain ⟨-, name, bound⟩ := bindingOf_binds m p
      exact .inr ⟨p, isPlanned, name.symm, bound.symm⟩
    · have special : refKey ∈ specialPropNames := by decide
      exact absurd special ordinary
    · have special : "children" ∈ specialPropNames := by decide
      exact absurd special ordinary
    · cases kept
  · rintro (⟨declares, rfl, rfl⟩ | ⟨p, isPlanned, rfl, rfl⟩)
    · refine ⟨⟨"class", some (localName c "className"), some "undefined", "string", false, false⟩,
        List.mem_append_left _ (List.mem_append_left _ (List.mem_append_left _ ?_)), rfl, rfl, classLocal⟩
      rw [if_pos declares]
      exact List.mem_singleton.mpr rfl
    · have mapped : bindingOf m p ∈ planned.map (bindingOf m) := List.mem_map_of_mem isPlanned
      refine ⟨bindingOf m p, ?_, bindingOf_binds m p⟩
      exact List.mem_append_left _ (List.mem_append_left _ (List.mem_append_right _ mapped))

end Svelte

/-- How a prop that is taken out into a variable reaches it in the script, given the props of the type
declared for the component. -/
inductive Reaches (declared : List Property) (c : Component) (m : Metadata) : String → String → Prop
  /-- Nothing is declared, so all there is to go by is the pattern. -/
  | undeclared {prop var : String} : prop ≠ "class" → declared = [] → Reaches declared c m prop var
  | declared {prop var : String} : prop ≠ "class" → prop ∈ declared.map (·.name) →
      Reaches declared c m prop var
  | axis {prop : String} : m.variant.any (·.hasAxis (publicName prop)) = true →
      Reaches declared c m prop (publicName prop)
  | className : declaresClass c m = true → Reaches declared c m "className" "className"
  /-- Only the other name of the class is looked up for a variable. -/
  | class : declaresClass c m = true → Reaches declared c m "class" (localName c "className")

theorem reaches_iff {declared : List Property} {c : Component} {m : Metadata} {prop var : String} :
    Reaches declared c m prop var ↔
      (prop ≠ "class" ∧ (declared = [] ∨ prop ∈ declared.map (·.name))) ∨
      (m.variant.any (·.hasAxis (publicName prop)) = true ∧ var = publicName prop) ∨
      (declaresClass c m = true ∧ prop = "className" ∧ var = "className") ∨
      (declaresClass c m = true ∧ prop = "class" ∧ var = localName c "className") := by
  constructor
  · intro reaches
    cases reaches with
    | undeclared other nothing => exact .inl ⟨other, .inl nothing⟩
    | declared other member => exact .inl ⟨other, .inr member⟩
    | axis isAxis => exact .inr (.inl ⟨isAxis, rfl⟩)
    | className declares => exact .inr (.inr (.inl ⟨declares, rfl, rfl⟩))
    | «class» declares => exact .inr (.inr (.inr ⟨declares, rfl, rfl⟩))
  · rintro (⟨other, nothing | member⟩ | ⟨isAxis, rfl⟩ | ⟨declares, rfl, rfl⟩ | ⟨declares, rfl, rfl⟩)
    · exact .undeclared other nothing
    · exact .declared other member
    · exact .axis isAxis
    · exact .className declares
    · exact .class declares

open Recast.Analysis Recast.Tsx

theorem boundTo_of_readAs {declared props : List Property} {prop var : String}
    (read : ReadAs declared prop var props) (nonempty : var ≠ "") {p : Property} (member : p ∈ props)
    (called : p.name = prop) : boundTo p = var := by
  rw [boundTo, read.called p member called, alias?]
  split
  · rename_i same
    rw [same, ← called]
    rfl
  · rw [Option.filter_some, if_pos (by simpa using nonempty)]
    rfl

theorem localName_of_readAs {declared : List Property} {c : Component} {prop var : String}
    (read : ReadAs declared prop var c.props) (nonempty : var ≠ "") :
    localName c prop = if prop ∈ c.props.map (·.name) then var else prop := by
  rw [localName, Component.findProp?]
  cases found : c.props.find? (·.name == prop) with
  | none =>
    rw [if_neg]
    · rfl
    · intro member
      obtain ⟨p, listed, called⟩ := List.mem_map.mp member
      exact List.find?_eq_none.mp found p listed (beq_iff_eq.mpr called)
  | some p =>
    have member := List.mem_of_find?_eq_some found
    have called : p.name = prop := by simpa using List.find?_some found
    rw [if_pos (called ▸ List.mem_map_of_mem member)]
    have bound := boundTo_of_readAs read nonempty member called
    rw [boundTo, called] at bound
    exact bound

theorem binds_iff_reaches {declared : List Property} {c : Component} {prop var : String}
    (read : ReadAs declared prop var c.props) (nonempty : var ≠ "") (ordinary : prop ∉ specialPropNames)
    (m : Metadata) :
    (∃ b ∈ Svelte.bindings c m (plannedProps c.props m),
        b.rest = false ∧ b.name = publicName prop ∧ b.localName = var) ↔
      Reaches declared c m prop var := by
  have called : ∀ p ∈ c.props, p.name = prop → boundTo p = var :=
    fun p member same => boundTo_of_readAs read nonempty member same
  rw [reaches_iff]
  by_cases isClass : prop ∈ classPropNames
  · have outside : publicName prop = "class" := if_pos isClass
    rw [outside, Svelte.binds_iff c m _ (by decide), exists_planned_class_iff]
    have names : prop = "className" ∨ prop = "class" := by simpa [classPropNames] using isClass
    rcases names with rfl | rfl
    · have bound := localName_of_readAs read nonempty
      by_cases present : "className" ∈ c.props.map (·.name)
      · have declares : declaresClass c m = true := by
          obtain ⟨p, member, called⟩ := List.mem_map.mp present
          have has : c.hasProp "className" = true :=
            List.any_eq_true.mpr ⟨p, member, beq_iff_eq.mpr called⟩
          simp [declaresClass, classPropNames, has]
        rw [if_pos present] at bound
        exact iff_of_true (.inl ⟨declares, rfl, bound⟩) (.inl ⟨by decide, read.listed.mp present⟩)
      · rw [if_neg present] at bound
        constructor
        · rintro (⟨declares, -, same⟩ | axis)
          · exact .inr (.inr (.inl ⟨declares, rfl, same.symm.trans bound⟩))
          · exact .inr (.inl axis)
        · rintro (⟨-, known⟩ | axis | ⟨declares, -, same⟩ | ⟨-, other, -⟩)
          · exact absurd (read.listed.mpr known) present
          · exact .inr axis
          · exact .inl ⟨declares, rfl, bound.trans same.symm⟩
          · exact absurd other (by decide)
    · constructor
      · rintro (⟨declares, -, same⟩ | axis)
        · exact .inr (.inr (.inr ⟨declares, rfl, same.symm⟩))
        · exact .inr (.inl axis)
      · rintro (⟨other, -⟩ | axis | ⟨-, other, -⟩ | ⟨declares, -, same⟩)
        · exact absurd rfl other
        · exact .inr axis
        · exact absurd other (by decide)
        · exact .inl ⟨declares, rfl, same.symm⟩
  · have outside : publicName prop = prop := if_neg isClass
    have listed : isListed prop = true := by simp [isListed, isClass, ordinary]
    have notClass : prop ≠ "class" ∧ prop ≠ "className" := by
      constructor
      · rintro rfl
        exact isClass (by decide)
      · rintro rfl
        exact isClass (by decide)
    rw [outside, Svelte.binds_iff c m _ ordinary, exists_planned_iff m listed called, read.listed]
    simp [notClass]

/-- When a prop that a component takes out into a variable is bound to it in the script. -/
theorem taken_bound_iff {text : String} {options : ReadOptions} {path : Option String} {root : Tree}
    {source : ParsedSource} (parsed : parse? text = some root)
    (read : readSource text options path = .ok source)
    {found : Discovered} {c : Component} (listed : (found, c) ∈ (discover root).zip source.components)
    {f pattern : Tree} (function : found.declared.function? = some f) (first : firstPattern? f = some pattern)
    {prop var : String} (takes : Takes pattern prop var) (ordinary : prop ∉ specialPropNames)
    (metadata : Option Metadata) (o : Options) :
    ∃ g d, Svelte.generate { c with metadata } o = .ok g ∧
      g.declarations.filter (·.kind = .propBinding) = [d] ∧
      (d.Binds (publicName prop) var ↔
        Reaches (declaredProps root (scopeOf source.shared found) found.name) { c with metadata }
          (metadataOf { c with metadata }) prop var) := by
  have sound : Sound c.root := ((readSource_ok read).components c (List.of_mem_zip listed).2).sound
  have children : prop ≠ "children" := by
    rintro rfl
    exact ordinary (by decide)
  have readAs := readSource_takes takes children first parsed read listed function
  obtain ⟨text, rendered, -⟩ := Layout.Svelte.markup_ink
    ⟨{ c with metadata }, metadataOf { c with metadata }, o.svelte.runes⟩
    (markupOf_sound (k := { c with metadata }) sound (metadataOf { c with metadata }))
  rw [Svelte.generate, rendered]
  refine ⟨_, _, rfl, Svelte.filter_propBinding _ _ _ _ _, ?_⟩
  exact binds_iff_reaches (c := { c with metadata }) readAs takes.var_ne ordinary _

/-- A component with a type of its own, which does not have all that is taken out. -/
def tagSource : String :=
  "interface TagProps \x7b label: string \x7d\n" ++
    "const Tag = (\x7b label: text, kind \x7d: TagProps) => <b>\x7btext\x7d</b>"

theorem read_tag : ∃ root source found c f pattern, parse? tagSource = some root ∧
    readSource tagSource {} none = .ok source ∧ (found, c) ∈ (discover root).zip source.components ∧
    found.declared.function? = some f ∧ firstPattern? f = some pattern ∧ pattern.kind = .objectPattern ∧
    pattern.parts.filterMap taken? = [("label", "text"), ("kind", "kind")] ∧
    (declaredProps root (scopeOf source.shared found) found.name).map (·.name) = ["label"] := by
  have chars : tagSource = String.ofList _ := Text.append_eq_ofList rfl rfl
  have checked : ((parse? tagSource).any fun root =>
      ((discover root).zip (analyze root {}).components).any fun entry => entry.1.declared.function?.any fun f =>
        (firstPattern? f).any fun pattern => pattern.kind = .objectPattern ∧
          pattern.parts.filterMap taken? = [("label", "text"), ("kind", "kind")] ∧
          (declaredProps root (scopeOf (analyze root {}).shared entry.1) entry.1.name).map (·.name) =
            ["label"]) = true := by
    rw [chars, parse?_ofList]
    decide +kernel
  obtain ⟨root, parsed, checked⟩ := (Option.any_eq_true _ _).mp checked
  obtain ⟨⟨found, c⟩, listed, checked⟩ := List.any_eq_true.mp checked
  obtain ⟨f, function, checked⟩ := (Option.any_eq_true _ _).mp checked
  obtain ⟨pattern, first, checked⟩ := (Option.any_eq_true _ _).mp checked
  have read : readSource tagSource {} none = .ok (analyze root {}) :=
    readSource_of_parsed parsed (by rw [chars, String.toList_ofList]; decide +kernel) {} none
  exact ⟨root, _, found, c, f, pattern, parsed, read, listed, function, first, of_decide_eq_true checked⟩

theorem taken_bound_iff_tag : ∃ c g d,
    Svelte.generate c { target := .svelte, formatTimeout := .whole 1 } = .ok g ∧
    g.declarations.filter (·.kind = .propBinding) = [d] ∧
    d.Binds "label" "text" ∧ ¬ d.Binds "kind" "kind" := by
  obtain ⟨root, source, found, c, f, pattern, parsed, read, listed, function, first, object, entries, names⟩ :=
    read_tag
  have label : Takes pattern "label" "text" :=
    ⟨object, by simp [entries], by simp [entries], by decide, by decide⟩
  have kind : Takes pattern "kind" "kind" :=
    ⟨object, by simp [entries], by simp [entries], by decide, by decide⟩
  obtain ⟨g, d, generated, single, labelBound⟩ :=
    taken_bound_iff parsed read listed function first label (by decide) (some {}) _
  obtain ⟨g', d', generated', single', kindBound⟩ :=
    taken_bound_iff parsed read listed function first kind (by decide) (some {}) _
  obtain rfl := Except.ok.inj (generated.symm.trans generated')
  obtain rfl := List.singleton_inj.mp (single.symm.trans single')
  refine ⟨_, g, d, generated, single, labelBound.mpr (.declared (by decide) (by simp [names])), ?_⟩
  intro bound
  rcases reaches_iff.mp (kindBound.mp bound) with
    ⟨-, nothing | member⟩ | ⟨isAxis, -⟩ | ⟨-, other, -⟩ | ⟨-, other, -⟩
  · rw [nothing] at names
    cases names
  · rw [names] at member
    simp at member
  · cases isAxis
  · exact absurd other (by decide)
  · exact absurd other (by decide)

end Recast.Generate
