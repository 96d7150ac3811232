import Recast.Analysis.Props

/-!
# The state pattern of a component

The pattern that a component matches is looked for twice: among the props as they are read, and again among
the marked props when the facts about the component are put together. The marks are what makes the second
search find the pattern of the first, whatever patterns share with each other.
-/

set_option autoImplicit false

namespace Recast

/-- A search that asks for more than another one still finds what that one found, if the more holds of it. -/
theorem find?_and_of_find? {α : Type} {list : List α} {more p : α → Bool} {a : α} (found : list.find? p = some a)
    (holds : more a = true) : list.find? (fun b => more b && p b) = some a := by
  obtain ⟨accepted, before, behind, rfl, rejected⟩ := List.find?_eq_some_iff_append.mp found
  refine List.find?_eq_some_iff_append.mpr ⟨by simp [holds, accepted], before, behind, rfl, fun b member => ?_⟩
  have other := rejected b member
  simp only [Bool.not_eq_true', Bool.and_eq_false_iff] at other ⊢
  exact .inr other

namespace Analysis

/-! ## Marked props -/

section Mark

variable (pattern : StatePattern) (p : Property)

@[simp]
theorem markState_name : (markState pattern p).name = p.name := by
  unfold markState
  split
  · rfl
  · split <;> rfl

theorem markState_of_name {p : Property} (named : p.name = pattern.valueProp) :
    (markState pattern p).isState = true ∧ (markState pattern p).stateLabels = some pattern.labels := by
  rw [markState, if_pos (beq_iff_eq.mpr named)]
  exact ⟨rfl, rfl⟩

theorem markState_isState {p : Property} (unmarked : p.isState = false) :
    (markState pattern p).isState = (p.name == pattern.valueProp) := by
  by_cases named : p.name = pattern.valueProp
  · rw [(markState_of_name pattern named).1, beq_iff_eq.mpr named]
  · rw [markState, beq_eq_false_iff_ne.mpr named, if_neg Bool.false_ne_true]
    split <;> exact unmarked

/-- Marking keeps the names, which are all that a pattern looks at. -/
theorem isMatch_markState (q : StatePattern) (props : List Property) :
    q.isMatch (props.map (markState pattern)) = q.isMatch props := by
  simp [StatePattern.isMatch, List.any_map, Function.comp_def]

end Mark

/-! ## Both searches -/

section Detected

variable {patterns : List StatePattern} {props marked : List Property} {found : Option StatePattern}

theorem detectState_none (detected : detectState patterns props = (marked, none)) :
    marked = props ∧ patterns.find? (·.isMatch props) = none := by
  rw [detectState] at detected
  split at detected
  · rename_i absent
    exact ⟨(Prod.mk.inj detected).1.symm, absent⟩
  · cases (Prod.mk.inj detected).2

theorem detectState_some {pattern : StatePattern} (detected : detectState patterns props = (marked, some pattern)) :
    marked = props.map (markState pattern) ∧ patterns.find? (·.isMatch props) = some pattern := by
  rw [detectState] at detected
  split at detected
  · cases (Prod.mk.inj detected).2
  · rename_i q present
    obtain ⟨same, here⟩ := Prod.mk.inj detected
    obtain rfl := Option.some.inj here
    exact ⟨same.symm, present⟩

/-- Among props of which none was marked, the marked ones are those that the pattern takes its value from. -/
theorem filter_isState_markState (unmarked : ∀ p ∈ props, p.isState = false) (pattern : StatePattern) :
    (props.map (markState pattern)).filter (·.isState) =
      (props.map (markState pattern)).filter fun p => p.name == pattern.valueProp := by
  refine List.filter_congr fun q member => ?_
  obtain ⟨p, old, rfl⟩ := List.mem_map.mp member
  rw [markState_isState pattern (unmarked p old), markState_name]

/-- The facts about a component name the pattern that its props were marked for, or none if there was none.
Its state props are those that the pattern takes its value from, at least one if there is a pattern, and they
have the labels of the pattern. -/
theorem statePattern_of_detected (unmarked : ∀ p ∈ props, p.isState = false) {c : Component}
    (detected : detectState patterns props = (c.props, found)) (shared : Option Shared) :
    (Metadata.ofComponent c shared patterns).statePattern = found ∧
    (Metadata.ofComponent c shared patterns).stateProps =
      c.props.filter (fun p => found.any fun pattern => p.name == pattern.valueProp) ∧
    (∀ p ∈ (Metadata.ofComponent c shared patterns).stateProps, p.stateLabels = found.map (·.labels)) ∧
    ((Metadata.ofComponent c shared patterns).stateProps = [] ↔ found = none) := by
  simp only [Metadata.ofComponent]
  cases found with
  | none =>
    obtain ⟨same, absent⟩ := detectState_none detected
    have none : c.props.filter (·.isState) = [] := by
      rw [same]
      exact List.filter_eq_nil_iff.mpr fun p member => by rw [unmarked p member]; exact Bool.false_ne_true
    rw [none]
    simp
  | some pattern =>
    obtain ⟨same, present⟩ := detectState_some detected
    have states : c.props.filter (·.isState) = c.props.filter fun p => p.name == pattern.valueProp := by
      rw [same]
      exact filter_isState_markState unmarked pattern
    have matched := List.find?_some present
    obtain ⟨p, member, named⟩ := List.any_eq_true.mp (Bool.and_eq_true_iff.mp matched).1
    have listed : markState pattern p ∈ c.props.filter fun p => p.name == pattern.valueProp := by
      rw [same]
      exact List.mem_filter.mpr ⟨List.mem_map_of_mem member, by rwa [markState_name]⟩
    rw [states]
    refine ⟨?_, rfl, fun q state => ?_, iff_of_false (List.ne_nil_of_mem listed) (Option.some_ne_none _)⟩
    · have again : patterns.find? (·.isMatch c.props) = some pattern := by
        simpa only [same, isMatch_markState] using present
      exact find?_and_of_find? again (List.any_eq_true.mpr ⟨_, listed, (List.mem_filter.mp listed).2⟩)
    · obtain ⟨marked, isValue⟩ := List.mem_filter.mp state
      rw [same] at marked
      obtain ⟨old, -, rfl⟩ := List.mem_map.mp marked
      rw [markState_name] at isValue
      exact (markState_of_name pattern (beq_iff_eq.mp isValue)).2

end Detected

/-- Patterns that share a value prop, in front of the usual ones. -/
def sharedPatterns : List StatePattern :=
  { valueProp := "checked", changeProp := "onToggle", labels := ⟨"yes", "no"⟩, ariaAttribute := "aria-checked" } ::
    { valueProp := "checked", changeProp := "onCheckedChange", labels := ⟨"in", "out"⟩, ariaAttribute := "aria-pressed" } ::
      StatePattern.defaults

def switchProps : List Property := [{ name := "onCheckedChange" }, { name := "checked", type := "boolean" }]

theorem statePattern_of_detected_switch :
    (Metadata.ofComponent { name := "Switch", props := (detectState sharedPatterns switchProps).1 } none
      sharedPatterns).statePattern = sharedPatterns[1]? ∧
    (Metadata.ofComponent { name := "Switch", props := (detectState sharedPatterns switchProps).1 } none
      sharedPatterns).stateProps.map (fun p => (p.name, p.stateLabels)) = [("checked", some ⟨"in", "out"⟩)] := by
  have detected : detectState sharedPatterns switchProps =
      ((detectState sharedPatterns switchProps).1, sharedPatterns[1]?) := by decide +kernel
  obtain ⟨pattern, stateProps, -, -⟩ :=
    @statePattern_of_detected sharedPatterns switchProps _ (by decide)
      { name := "Switch", props := (detectState sharedPatterns switchProps).1 } detected none
  refine ⟨pattern, ?_⟩
  rw [stateProps]
  decide +kernel

end Analysis

end Recast
