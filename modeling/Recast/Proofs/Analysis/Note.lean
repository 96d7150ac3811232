import Mathlib.Data.List.Forall2
import Recast.Analysis.Note

/-!
# What an analysis yields

A property of the result of an analysis that holds whatever was noted before it. It goes through
sequences, lists and folds step by step.
-/

set_option autoImplicit false

namespace Recast.Analysis

variable {α β : Type}

/-- The result has the property, whatever warnings there are. -/
def Yields (P : α → Prop) (x : Noting α) : Prop := ∀ noted, P (x.run noted).1

theorem Yields.pure {P : α → Prop} {a : α} (holds : P a) : Yields P (pure a) := fun _ => holds

theorem Yields.bind {P : α → Prop} {Q : β → Prop} {x : Noting α} {k : α → Noting β} (first : Yields P x)
    (next : ∀ a, P a → Yields Q (k a)) : Yields Q (x >>= k) :=
  fun noted => next (x.run noted).1 (first noted) (x.run noted).2

/-- What comes first does not matter. -/
theorem Yields.after {Q : β → Prop} {x : Noting α} {k : α → Noting β} (next : ∀ a, Yields Q (k a)) :
    Yields Q (x >>= k) :=
  fun noted => next (x.run noted).1 (x.run noted).2

/-- A warning in front does not matter either. -/
theorem Yields.warned {P : α → Prop} {x : Noting α} (holds : Yields P x) (message : String)
    (isNoted : Bool) : Yields P (if isNoted then warn message >>= fun _ => x else x) := by
  split
  · exact Yields.after fun _ => holds
  · exact holds

theorem Yields.mapM {P : β → Prop} {f : α → Noting β} (items : List α) (each : ∀ a ∈ items, Yields P (f a)) :
    Yields (fun bs => ∀ b ∈ bs, P b) (items.mapM f) := by
  induction items with
  | nil => exact Yields.pure (by simp)
  | cons a items ih =>
    rw [List.mapM_cons]
    refine (each a (by simp)).bind fun b here => ?_
    refine (ih fun c member => each c (by simp [member])).bind fun bs rest => ?_
    exact Yields.pure (by simpa using ⟨here, rest⟩)

/-- Each result next to what it was made of. -/
theorem Yields.mapM_forall₂ {P : α → β → Prop} {f : α → Noting β} (items : List α)
    (each : ∀ a ∈ items, Yields (P a) (f a)) : Yields (List.Forall₂ P items) (items.mapM f) := by
  induction items with
  | nil => exact Yields.pure List.Forall₂.nil
  | cons a items ih =>
    rw [List.mapM_cons]
    refine (each a (by simp)).bind fun b here => ?_
    refine (ih fun c member => each c (by simp [member])).bind fun bs rest => ?_
    exact Yields.pure (.cons here rest)

/-- What every step of a fold preserves. -/
theorem Yields.foldlM {P : β → Prop} {step : β → α → Noting β} (items : List α) {start : β} (initial : P start)
    (each : ∀ b, P b → ∀ a ∈ items, Yields P (step b a)) : Yields P (items.foldlM step start) := by
  induction items generalizing start with
  | nil => exact Yields.pure initial
  | cons a items ih =>
    rw [List.foldlM_cons]
    refine (each start initial a (by simp)).bind fun b holds => ?_
    exact ih holds fun b holds c member => each b holds c (by simp [member])

end Recast.Analysis
