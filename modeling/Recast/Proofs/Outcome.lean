import Recast.Error

/-!
# Outcomes of two runs
-/

set_option autoImplicit false

namespace Recast

/-- Two runs that fail with the same report, or succeed with related results. -/
inductive Alike {α : Type} (R : α → α → Prop) : Except Report α → Except Report α → Prop
  | ok {a b : α} : R a b → Alike R (.ok a) (.ok b)
  | error (e : Report) : Alike R (.error e) (.error e)

theorem Alike.refl {α : Type} {R : α → α → Prop} (h : ∀ a, R a a) (x : Except Report α) : Alike R x x := by
  cases x with
  | ok a => exact .ok (h a)
  | error e => exact .error e

theorem Alike.exists_ok {α : Type} {R : α → α → Prop} {x y : Except Report α} {a : α} (h : Alike R x y)
    (left : x = .ok a) : ∃ b, y = .ok b ∧ R a b := by
  cases h with
  | ok related =>
    obtain rfl := Except.ok.inj left
    exact ⟨_, rfl, related⟩
  | error e => simp at left

theorem Alike.bind_of_ok {α β : Type} {R : α → α → Prop} {S : β → β → Prop} {x y : Except Report α}
    {f g : α → Except Report β} (h : Alike R x y)
    (next : ∀ a b, x = .ok a → y = .ok b → R a b → Alike S (f a) (g b)) :
    Alike S (x >>= f) (y >>= g) := by
  cases h with
  | ok related => exact next _ _ rfl rfl related
  | error e => exact .error e

theorem Alike.bind {α β : Type} {R : α → α → Prop} {S : β → β → Prop} {x y : Except Report α}
    {f g : α → Except Report β} (h : Alike R x y) (next : ∀ a b, R a b → Alike S (f a) (g b)) :
    Alike S (x >>= f) (y >>= g) :=
  h.bind_of_ok fun a b _ _ related => next a b related

theorem Alike.map {α β : Type} {R : α → α → Prop} {S : β → β → Prop} {x y : Except Report α}
    {f : α → β} (h : Alike R x y) (next : ∀ a b, R a b → S (f a) (f b)) :
    Alike S (f <$> x) (f <$> y) := by
  cases h with
  | ok related => exact .ok (next _ _ related)
  | error e => exact .error e

/-- What a run of two steps is checked for holds of a result, and both steps lead to it. -/
theorem exists_ok_of_any {α β : Type} {x : Except Report α} {f : α → Except Report β} {p : β → Bool}
    (checked : (x >>= f).toOption.any p = true) : ∃ a b, x = .ok a ∧ f a = .ok b ∧ p b = true := by
  cases x with
  | error e => cases checked
  | ok a =>
    have step : (Except.ok a >>= f) = f a := rfl
    rw [step] at checked
    cases result : f a with
    | error e =>
      rw [result] at checked
      cases checked
    | ok b =>
      rw [result] at checked
      exact ⟨a, b, rfl, result, checked⟩

end Recast
