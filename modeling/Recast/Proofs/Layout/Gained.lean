import Mathlib.Data.List.Forall2
import Recast.Proofs.Layout.Drawing
import Recast.Proofs.Text.Search

/-!
# Where state attributes go

A component with a state shows it on its first element, the root, by up to six attributes, and on other
elements by at most one. `gains_in_place` says of every element of a forest which attributes it gains,
as both renderers write them: the root those that apply and that it lacks, in a fixed order, and another
element its state exactly if its classes select on it and it has none of its own.
-/

set_option autoImplicit false

namespace Recast.Layout

open Recast.Generate Recast.Markup

def gained? : Attribute → Option Gained
  | .gained g => some g
  | _ => none

/-- What an element gains in a drawing. -/
def Look.gained (look : Look) : List Gained := look.attributes.filterMap gained?

/-- Neither a static nor a dynamic attribute of an element has the name. -/
def Lacks (h : Head) (name : String) : Prop := name ∉ h.attributes.keys ∧ name ∉ h.bindings.keys

/-- The classes of an element select on the state. -/
def SelectsState (h : Head) : Prop := "data-[state=".toList <:+: h.classSource.toList

/-- What an element other than the root shows of a state. -/
def shownState : Gained := ⟨"data-state", .variable "dataState"⟩

inductive StatePart where
  | type
  | role
  | aria
  | state
  | disabled
  | click

namespace StatePart

def order : List StatePart := [type, role, aria, state, disabled, click]

/-- The attribute by which a root shows or changes a part of the state, if the part applies to it. -/
def attribute? (c : Component) (p : StatePattern) (h : Head) : StatePart → Option Gained
  | type => if nativeTag h = "button" then some ⟨"type", .static "button"⟩ else none
  | role =>
    if nativeTag h = "button" then (p.role.filter (· ≠ "")).map fun r => ⟨"role", .static r⟩ else none
  | aria => some ⟨p.ariaAttribute, .prop p.valueProp⟩
  | state => some shownState
  | disabled => if "disabled" ∈ c.props.map (·.name) then some ⟨"disabled", .prop "disabled"⟩ else none
  | click =>
    if p.valueProp ∈ c.props.map (·.name) ∧ p.changeProp ∈ c.props.map (·.name) then
      some ⟨"onClick", .event "toggle"⟩
    else none

end StatePart

/-- An element gains, of the attributes wanted for it, those that it lacks: in order, and of several with
one name the first. -/
structure Supplied (h : Head) (wanted gained : List Gained) : Prop where
  inOrder : gained.Sublist wanted
  lacking : ∀ g ∈ gained, Lacks h g.name
  once : (gained.map (·.name)).Nodup
  all : ∀ front g back, wanted = front ++ g :: back → Lacks h g.name → g.name ∉ front.map (·.name) →
    g ∈ gained

/-- An element other than the root gains its state, and only if its classes select on it and it has none
of its own. -/
def Follows (h : Head) (gained : List Gained) : Prop :=
  SelectsState h ∧ Lacks h "data-state" ∧ gained = [shownState] ∨
    ¬ (SelectsState h ∧ Lacks h "data-state") ∧ gained = []

/-- What the elements of a forest gain, as they are drawn in document order. -/
structure InPlace (c : Component) (m : Metadata) (elements : List (Head × List Node)) (looks : List Look) :
    Prop where
  stateless : m.statePattern = none → ∀ look ∈ looks, look.gained = []
  root : ∀ p, m.statePattern = some p → ∀ e es, elements = e :: es → ∃ look others, looks = look :: others ∧
    Supplied e.1 (StatePart.order.filterMap (StatePart.attribute? c p e.1)) look.gained
  others : ∀ p, m.statePattern = some p → ∀ e es look others, elements = e :: es → looks = look :: others →
    List.Forall₂ (fun e look => Follows e.1 look.gained) es others
  /-- No element gains what it has, or gains anything twice. -/
  new : List.Forall₂ (fun e look => look.tag = tagOf e.1 ∧ (look.gained.map (·.name)).Nodup ∧
    ∀ g ∈ look.gained, Lacks e.1 g.name) elements looks

/-! ## Plans -/

theorem has_eq_false_iff {h : Head} {name : String} : h.has name = false ↔ Lacks h name := by
  rw [Head.has, Bool.or_eq_false_iff, ← Bool.not_eq_true, ← Bool.not_eq_true, Assoc.has_iff_mem_keys,
    Assoc.has_iff_mem_keys, Lacks]

theorem rootCandidates_eq (c : Component) (p : StatePattern) (h : Head) :
    rootCandidates c p h = StatePart.order.filterMap (StatePart.attribute? c p h) := by
  have declared : ∀ name, (c.props.any (·.name == name)) = true ↔ name ∈ c.props.map (·.name) := by
    intro name
    simp
  have disabled : c.hasProp "disabled" = true ↔ "disabled" ∈ c.props.map (·.name) := declared _
  have both : p.isMatch c.props = true ↔
      p.valueProp ∈ c.props.map (·.name) ∧ p.changeProp ∈ c.props.map (·.name) := by
    rw [StatePattern.isMatch, Bool.and_eq_true, declared, declared]
  have parts (f : StatePart → Option Gained) : StatePart.order.filterMap f = ((f .type).toList ++ (f .role).toList)
      ++ ((f .aria).toList ++ (f .state).toList) ++ (f .disabled).toList ++ (f .click).toList := by
    simp [StatePart.order, List.filterMap_eq_flatMap_toList]
  rw [parts, rootCandidates]
  simp only [StatePart.attribute?, apply_ite Option.toList, Option.toList_none, ← disabled, ← both]
  congr 3
  split <;> rfl

theorem Supplied.addMissing {h : Head} {wanted plan : List Gained} (supplied : Supplied h wanted plan)
    (g : Gained) : Supplied h (wanted ++ [g]) (addMissing h plan g) := by
  obtain ⟨inOrder, lacking, once, all⟩ := supplied
  have planned : (plan.any (·.name == g.name)) = true ↔ g.name ∈ plan.map (·.name) := by simp
  have known : g.name ∈ plan.map (·.name) → g.name ∈ wanted.map (·.name) := by
    intro member
    exact (inOrder.map _).subset member
  -- what was wanted before is taken care of by the plan so far
  have before : ∀ front g' back, wanted ++ [g] = front ++ g' :: back → Lacks h g'.name →
      g'.name ∉ front.map (·.name) → g' ∈ plan ∨ g' = g ∧ front = wanted := by
    intro front g' back split lacks new
    rcases List.eq_nil_or_concat' back with rfl | ⟨back, last, rfl⟩
    · obtain ⟨rfl, same⟩ := List.append_inj' split rfl
      exact .inr ⟨(List.singleton_inj.mp same).symm, rfl⟩
    · have shifted : front ++ g' :: (back ++ [last]) = (front ++ g' :: back) ++ [last] := by simp
      rw [shifted] at split
      exact .inl (all front g' back (List.append_inj' split rfl).1 lacks new)
  rw [Generate.addMissing]
  by_cases skipped : (h.has g.name || plan.any (·.name == g.name)) = true
  · rw [if_pos skipped]
    refine ⟨inOrder.trans (List.sublist_append_left _ _), lacking, once, ?_⟩
    intro front g' back split lacks new
    rcases before front g' back split lacks new with old | ⟨rfl, rfl⟩
    · exact old
    · rw [has_eq_false_iff.mpr lacks, Bool.false_or] at skipped
      exact absurd (known (planned.mp skipped)) new
  · rw [if_neg skipped]
    rw [Bool.not_eq_true, Bool.or_eq_false_iff, ← Bool.not_eq_true (plan.any _), planned] at skipped
    obtain ⟨lacks, absent⟩ := skipped
    refine ⟨inOrder.append (List.Sublist.refl _), ?_, ?_, ?_⟩
    · intro g' member
      rcases List.mem_append.mp member with old | new
      · exact lacking g' old
      · rw [List.mem_singleton.mp new]
        exact has_eq_false_iff.mp lacks
    · rw [List.map_append, List.map_singleton, List.nodup_append]
      refine ⟨once, by simp, ?_⟩
      rintro name old _ new rfl
      rw [List.mem_singleton.mp new] at old
      exact absent old
    · intro front g' back split lacks' new
      rcases before front g' back split lacks' new with old | ⟨rfl, -⟩
      · exact List.mem_append_left _ old
      · exact List.mem_append_right _ (List.mem_singleton.mpr rfl)

theorem supplied_foldl {h : Head} {wanted plan : List Gained} (supplied : Supplied h wanted plan)
    (more : List Gained) : Supplied h (wanted ++ more) (more.foldl (Generate.addMissing h) plan) := by
  induction more generalizing wanted plan with
  | nil => rwa [List.append_nil]
  | cons g more ih =>
    have shifted : wanted ++ g :: more = (wanted ++ [g]) ++ more := by simp
    rw [shifted, List.foldl_cons]
    exact ih (supplied.addMissing g)

theorem rootGains_supplied {c : Component} {m : Metadata} {p : StatePattern} (pattern : m.statePattern = some p)
    (h : Head) : Supplied h (StatePart.order.filterMap (StatePart.attribute? c p h)) (rootGains c m h) := by
  have start : Supplied h [] [] := by
    refine ⟨List.Sublist.refl _, by simp, by simp, ?_⟩
    intro front g back split
    simp at split
  rw [rootGains, pattern, ← rootCandidates_eq]
  exact supplied_foldl start (rootCandidates c p h)

theorem childGains_follows {m : Metadata} {p : StatePattern} (pattern : m.statePattern = some p) (h : Head) :
    Follows h (childGains m h) := by
  have wanted : (Text.contains stateSelector h.classSource && !h.has stateAttribute) = true ↔
      SelectsState h ∧ Lacks h "data-state" := by
    rw [Bool.and_eq_true, Bool.not_eq_true', Text.contains, Text.occurs_iff, has_eq_false_iff]
    rfl
  rw [childGains, pattern, Option.isSome_some, Bool.true_and]
  by_cases both : SelectsState h ∧ Lacks h "data-state"
  · rw [if_pos (wanted.mpr both)]
    exact .inl ⟨both.1, both.2, rfl⟩
  · rw [if_neg fun shown => both (wanted.mp shown)]
    exact .inr ⟨both, rfl⟩

theorem gains_stateless (c : Component) {m : Metadata} (pattern : m.statePattern = none) (h : Head)
    (isRoot : Bool) : gains c m h isRoot = [] := by
  cases isRoot <;> simp [gains, rootGains, childGains, pattern]

theorem gains_new (c : Component) (m : Metadata) (h : Head) (isRoot : Bool) :
    ((gains c m h isRoot).map (·.name)).Nodup ∧ ∀ g ∈ gains c m h isRoot, Lacks h g.name := by
  cases pattern : m.statePattern with
  | none => simp [gains_stateless c pattern]
  | some p =>
    cases isRoot with
    | true =>
      have supplied := rootGains_supplied (c := c) pattern h
      exact ⟨supplied.once, supplied.lacking⟩
    | false =>
      rcases childGains_follows pattern h with ⟨-, lacks, same⟩ | ⟨-, same⟩
      · rw [gains, if_neg Bool.false_ne_true, same]
        simpa [shownState] using lacks
      · simp [gains, same]

/-! ## Drawings -/

section Looks

variable (target : Target) (c : Component) (m : Metadata)

theorem gained_lookOf (isRoot : Bool) (h : Head) (children : List Node) :
    (lookOf (attributesFor target c m) isRoot h children).gained = gains c m h isRoot := by
  have classes : (Generate.Svelte.classAttribute h).filterMap gained? = [] := by
    rw [Generate.Svelte.classAttribute]
    split
    · rfl
    · cases h.attributes.get? classKey <;> rfl
  have expressions : ∀ entry, (Generate.Svelte.expressionAttribute? entry).bind gained? = none := by
    intro entry
    rw [Generate.Svelte.expressionAttribute?]
    split <;> rfl
  have refs : ((h.bindings.get? refKey).map fun b => Attribute.ref b.code).toList.filterMap gained? = [] := by
    cases h.bindings.get? refKey <;> rfl
  have events : ∀ entry, (Generate.Svelte.eventAttribute? entry).bind gained? = none := by
    intro entry
    rw [Generate.Svelte.eventAttribute?]
    split <;> rfl
  have spread : (if h.hasSpread then [Attribute.spread] else []).filterMap gained? = [] := by
    split <;> rfl
  rw [Look.gained, lookOf, attributesFor_eq, Generate.Svelte.attributesOf]
  simp only [List.filterMap_append, classes, refs, spread, List.filterMap_filterMap, expressions, events]
  simp [List.filterMap_map, Function.comp_def, gained?]

theorem looksFrom_false (select : Head → Bool → List Attribute) (es : List (Head × List Node)) :
    looksFrom select false es = es.map fun e => lookOf select false e.1 e.2 := by
  induction es with
  | nil => rfl
  | cons e es ih => rw [looksFrom, ih, List.map_cons]

theorem inPlace_looksFrom (elements : List (Head × List Node)) :
    InPlace c m elements (looksFrom (attributesFor target c m) true elements) := by
  have each (isRoot : Bool) (e : Head × List Node) :
      let look := lookOf (attributesFor target c m) isRoot e.1 e.2
      look.tag = tagOf e.1 ∧ (look.gained.map (·.name)).Nodup ∧ ∀ g ∈ look.gained, Lacks e.1 g.name := by
    intro look
    have gained : look.gained = gains c m e.1 isRoot := gained_lookOf target c m isRoot e.1 e.2
    rw [gained]
    exact ⟨rfl, gains_new c m e.1 isRoot⟩
  cases elements with
  | nil =>
    rw [looksFrom]
    exact ⟨by simp, by simp, by simp, .nil⟩
  | cons e es =>
    rw [looksFrom, looksFrom_false]
    refine ⟨?_, ?_, ?_, ?_⟩
    · intro pattern look member
      rcases List.mem_cons.mp member with rfl | later
      · rw [gained_lookOf, gains_stateless c pattern]
      · obtain ⟨e', -, rfl⟩ := List.mem_map.mp later
        rw [gained_lookOf, gains_stateless c pattern]
    · rintro p pattern _ _ ⟨rfl, rfl⟩
      refine ⟨_, _, rfl, ?_⟩
      rw [gained_lookOf, gains, if_pos rfl]
      exact rootGains_supplied pattern e.1
    · rintro p pattern _ _ _ _ ⟨rfl, rfl⟩ ⟨rfl, rfl⟩
      rw [List.forall₂_map_right_iff, List.forall₂_same]
      intro e' _
      rw [gained_lookOf, gains, if_neg Bool.false_ne_true]
      exact childGains_follows pattern e'.1
    · refine .cons (each true e) ?_
      rw [List.forall₂_map_right_iff, List.forall₂_same]
      intro e' _
      exact each false e'

end Looks

/-- Which attributes every element gains, as both renderers write it. -/
theorem gains_in_place (c : Component) (m : Metadata) (runes : Bool) (forest : Forest) :
    ∃ drawing, DrawnByBoth c m runes forest drawing ∧
      InPlace c m (elementsOf forest.nodes) (looksIn drawing) := by
  have drawn := drawnByBoth_drawForest c m runes forest
  refine ⟨_, drawn, ?_⟩
  rw [drawn.svelteLooks]
  exact inPlace_looksFrom .svelte c m (elementsOf forest.nodes)

theorem gains_in_place_switch :
    ∃ drawing, DrawnByBoth switchComponent switchMetadata false switchForest drawing ∧
      InPlace switchComponent switchMetadata (elementsOf switchForest.nodes) (looksIn drawing) ∧
      (looksIn drawing).map (fun look => look.gained.map (·.name)) =
        [["type", "role", "aria-checked", "data-state", "onClick"], ["data-state"], []] := by
  obtain ⟨drawing, drawn, placed⟩ := gains_in_place switchComponent switchMetadata false switchForest
  refine ⟨drawing, drawn, placed, ?_⟩
  rw [drawn.svelteLooks]
  decide +kernel

end Recast.Layout
