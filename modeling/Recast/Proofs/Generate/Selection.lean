import Recast.Generate.Svelte.Markup
import Recast.Generate.Vue.Markup

/-!
# The choice of attributes

Each target goes through an element by itself: which class it takes, which bindings it passes over, what an
event is called, and where the attributes stand that the element gains. `Vue.attributesOf_eq` says that both
come to the same attributes in the same order, and `mem_attributesFor_iff` where each of them is from.
-/

set_option autoImplicit false

namespace Recast.Generate

open Recast.Markup

/-! ## Both targets -/

namespace Vue

theorem eventSubject?_eq (name : String) : eventSubject? name = Svelte.eventSubject? name := rfl

theorem eventName_eq (name : String) : eventName name = Svelte.eventName name := by
  cases subject : Svelte.eventSubject? name with
  | some _ => simp only [eventName, Svelte.eventName, eventSubject?_eq, subject]
  | none => simp only [eventName, Svelte.eventName, eventSubject?_eq, subject]

theorem classAttribute_eq (h : Head) : classAttribute h = Svelte.classAttribute h := by
  cases bound : h.bindings.get? classKey with
  | some _ => simp only [classAttribute, Svelte.classAttribute, bound]
  | none => simp only [classAttribute, Svelte.classAttribute, bound]

theorem expressionAttribute?_eq (entry : String × Binding) :
    expressionAttribute? entry = Svelte.expressionAttribute? entry := by
  rw [expressionAttribute?, Svelte.expressionAttribute?]

theorem eventAttribute?_eq (entry : String × Binding) :
    eventAttribute? entry = Svelte.eventAttribute? entry := by
  rw [eventAttribute?, Svelte.eventAttribute?, eventName_eq]

/-- A template has the attributes that Svelte markup has, in the same order. -/
theorem attributesOf_eq (c : Component) (m : Metadata) (h : Head) (isRoot : Bool) :
    attributesOf c m h isRoot = Svelte.attributesOf c m h isRoot := by
  rw [attributesOf, Svelte.attributesOf, classAttribute_eq, funext expressionAttribute?_eq,
    funext eventAttribute?_eq]

end Vue

def attributesFor (target : Target) (c : Component) (m : Metadata) (h : Head) (isRoot : Bool) : List Attribute :=
  match target with
  | .svelte => Svelte.attributesOf c m h isRoot
  | .vue => Vue.attributesOf c m h isRoot

theorem attributesFor_eq (target : Target) (c : Component) (m : Metadata) (h : Head) (isRoot : Bool) :
    attributesFor target c m h isRoot = Svelte.attributesOf c m h isRoot := by
  cases target with
  | svelte => rfl
  | vue => exact Vue.attributesOf_eq c m h isRoot

/-! ## Where an attribute is from -/

/-- What an element must have, or gain, to be given an attribute. -/
inductive Chosen (c : Component) (m : Metadata) (h : Head) (isRoot : Bool) : Attribute → Prop
  | classExpression {b : Binding} (bound : h.bindings.get? classKey = some b) :
      Chosen c m h isRoot (.classExpression b.code)
  | classText {text : String} (unbound : h.bindings.get? classKey = none)
      (static : h.attributes.get? classKey = some text) : Chosen c m h isRoot (.classText text)
  | static {key value : String} (static : (key, value) ∈ h.attributes) (other : key ≠ classKey) :
      Chosen c m h isRoot (.static (attributeName key) value)
  | expression {key : String} {b : Binding} (bound : (key, b) ∈ h.bindings) (kind : b.kind = .expression)
      (other : ¬ (key = classKey ∨ key = refKey ∨ key = spreadKey)) :
      Chosen c m h isRoot (.expression (attributeName key) b.code)
  | gained {g : Gained} (gain : g ∈ gains c m h isRoot) : Chosen c m h isRoot (.gained g)
  | ref {b : Binding} (bound : h.bindings.get? refKey = some b) : Chosen c m h isRoot (.ref b.code)
  | event {key : String} {b : Binding} (bound : (key, b) ∈ h.bindings) (kind : b.kind = .event) :
      Chosen c m h isRoot (.event (Svelte.eventName key) b.code)
  | spread (rest : h.hasSpread = true) : Chosen c m h isRoot .spread

namespace Svelte

theorem mem_classAttribute_iff {h : Head} {a : Attribute} :
    a ∈ classAttribute h ↔ (∃ b, h.bindings.get? classKey = some b ∧ a = .classExpression b.code) ∨
      h.bindings.get? classKey = none ∧ ∃ text, h.attributes.get? classKey = some text ∧ a = .classText text := by
  rw [classAttribute]
  cases bound : h.bindings.get? classKey with
  | some b => simp
  | none =>
    simp only [reduceCtorEq, false_and, exists_false, false_or, true_and, Option.mem_toList, Option.map_eq_some_iff]
    exact exists_congr fun _ => and_congr_right fun _ => eq_comm

theorem expressionAttribute?_eq_some {key : String} {b : Binding} {a : Attribute} :
    expressionAttribute? (key, b) = some a ↔
      ¬ (key = classKey ∨ key = refKey ∨ key = spreadKey) ∧ b.kind = .expression ∧
        a = .expression (attributeName key) b.code := by
  rw [expressionAttribute?]
  by_cases kind : b.kind = .expression <;> simp [kind, eq_comm, and_assoc]

theorem eventAttribute?_eq_some {key : String} {b : Binding} {a : Attribute} :
    eventAttribute? (key, b) = some a ↔ b.kind = .event ∧ a = .event (eventName key) b.code := by
  rw [eventAttribute?]
  by_cases kind : b.kind = .event <;> simp [kind, eq_comm]

theorem mem_attributesOf_iff {c : Component} {m : Metadata} {h : Head} {isRoot : Bool} {a : Attribute} :
    a ∈ attributesOf c m h isRoot ↔ Chosen c m h isRoot a := by
  simp only [attributesOf, List.mem_append, List.mem_map, List.mem_filter, List.mem_filterMap, Option.mem_toList,
    Option.map_eq_some_iff, List.mem_ite_nil_right, List.mem_singleton, mem_classAttribute_iff, Prod.exists,
    expressionAttribute?_eq_some, eventAttribute?_eq_some, decide_eq_true_eq, or_assoc]
  constructor
  · rintro (⟨b, bound, rfl⟩ | ⟨unbound, text, static, rfl⟩ | ⟨key, value, ⟨static, other⟩, rfl⟩ |
      ⟨key, b, bound, other, kind, rfl⟩ | ⟨g, gain, rfl⟩ | ⟨b, bound, rfl⟩ | ⟨key, b, bound, kind, rfl⟩ |
      ⟨rest, rfl⟩)
    · exact .classExpression bound
    · exact .classText unbound static
    · exact .static static other
    · exact .expression bound kind other
    · exact .gained gain
    · exact .ref bound
    · exact .event bound kind
    · exact .spread rest
  · intro chosen
    cases chosen with
    | classExpression bound => exact .inl ⟨_, bound, rfl⟩
    | classText unbound static => exact .inr (.inl ⟨unbound, _, static, rfl⟩)
    | static static other => exact .inr (.inr (.inl ⟨_, _, ⟨static, other⟩, rfl⟩))
    | expression bound kind other => exact .inr (.inr (.inr (.inl ⟨_, _, bound, other, kind, rfl⟩)))
    | gained gain => exact .inr (.inr (.inr (.inr (.inl ⟨_, gain, rfl⟩))))
    | ref bound => exact .inr (.inr (.inr (.inr (.inr (.inl ⟨_, bound, rfl⟩)))))
    | event bound kind => exact .inr (.inr (.inr (.inr (.inr (.inr (.inl ⟨_, _, bound, kind, rfl⟩))))))
    | spread rest => exact .inr (.inr (.inr (.inr (.inr (.inr (.inr ⟨rest, rfl⟩))))))

end Svelte

/-- An element has exactly the attributes that it has reason for, for either target. -/
theorem mem_attributesFor_iff {target : Target} {c : Component} {m : Metadata} {h : Head} {isRoot : Bool}
    {a : Attribute} : a ∈ attributesFor target c m h isRoot ↔ Chosen c m h isRoot a := by
  rw [attributesFor_eq, Svelte.mem_attributesOf_iff]

end Recast.Generate
