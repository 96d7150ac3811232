/-!
# Loops

A loop takes turns on a state until there is no next one. It ends from every state if each turn makes a
measure smaller, after at most as many turns as the measure says, and it ends with what each turn keeps.
-/

set_option autoImplicit false

namespace Recast

variable {σ : Type}

/-- From a state a loop takes some turns and ends in another one. -/
inductive Ends (turn : σ → Option σ) : Nat → σ → σ → Prop
  | here {s : σ} (last : turn s = none) : Ends turn 0 s s
  | later {n : Nat} {s t final : σ} (next : turn s = some t) (rest : Ends turn n t final) :
      Ends turn (n + 1) s final

namespace Ends

variable {turn : σ → Option σ}

theorem exists_of_measure (measure : σ → Nat) (smaller : ∀ s t, turn s = some t → measure t < measure s)
    (s : σ) : ∃ n ≤ measure s, ∃ final, Ends turn n s final := by
  induction bound : measure s using Nat.strongRecOn generalizing s with
  | ind bound ih =>
    cases next : turn s with
    | none => exact ⟨0, Nat.zero_le _, s, .here next⟩
    | some t =>
      have less := smaller s t next
      obtain ⟨n, short, final, rest⟩ := ih (measure t) (bound ▸ less) t rfl
      exact ⟨n + 1, by omega, final, .later next rest⟩

theorem keeps {inv : σ → Prop} (step : ∀ s t, inv s → turn s = some t → inv t) {n : Nat} {s final : σ}
    (run : Ends turn n s final) (start : inv s) : inv final := by
  induction run with
  | here last => exact start
  | later next rest ih => exact ih (step _ _ start next)

end Ends

end Recast
