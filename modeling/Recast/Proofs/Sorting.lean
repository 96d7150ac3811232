import Mathlib.Data.List.Basic
import Mathlib.Order.Lattice

/-!
# Sorting by a key

Sorting by a key keeps elements of one key in the order in which they were given. A list that is sorted by a
key is determined by the elements that it has for each key, so there is one way to sort a list like this.
-/

set_option autoImplicit false

namespace Recast

variable {α β : Type} [LinearOrder β] (key : α → β)

theorem key_trans (a b c : α) (left : decide (key a ≤ key b) = true) (right : decide (key b ≤ key c) = true) :
    decide (key a ≤ key c) = true :=
  decide_eq_true (le_trans (of_decide_eq_true left) (of_decide_eq_true right))

theorem key_total (a b : α) : (decide (key a ≤ key b) || decide (key b ≤ key a)) = true := by
  rw [Bool.or_eq_true, decide_eq_true_eq, decide_eq_true_eq]
  exact le_total _ _

theorem pairwise_mergeSort_key (xs : List α) :
    (xs.mergeSort fun a b => decide (key a ≤ key b)).Pairwise fun a b => key a ≤ key b :=
  (List.pairwise_mergeSort (key_trans key) (key_total key) xs).imp of_decide_eq_true

/-- What is picked from one key only is picked from the sorted list in the order in which it was given. -/
theorem filter_mergeSort_key {p : α → Bool} (tied : ∀ a b, p a = true → p b = true → key a ≤ key b)
    (xs : List α) : (xs.mergeSort fun a b => decide (key a ≤ key b)).filter p = xs.filter p := by
  have own : (xs.filter p).Pairwise fun a b => decide (key a ≤ key b) = true := by
    refine List.pairwise_iff_forall_sublist.mpr fun {a b} both => ?_
    have picked : ∀ c ∈ [a, b], p c = true := fun c inside => (List.mem_filter.mp (both.subset inside)).2
    exact decide_eq_true (tied a b (picked a (by simp)) (picked b (by simp)))
  have kept := List.sublist_mergeSort (key_trans key) (key_total key) own List.filter_sublist
  have within := kept.filter p
  rw [List.filter_filter, List.filter_congr fun c _ => Bool.and_self _] at within
  exact (within.eq_of_length ((List.mergeSort_perm xs _).filter p).length_eq.symm).symm

theorem mem_of_filter_key {xs ys : List α} {a : α}
    (same : ∀ k, xs.filter (key · = k) = ys.filter (key · = k)) (member : a ∈ xs) : a ∈ ys := by
  have picked : a ∈ xs.filter (key · = key a) := List.mem_filter.mpr ⟨member, by simp⟩
  rw [same] at picked
  exact (List.mem_filter.mp picked).1

/-- The first element of a sorted list has the least key, so two sorted lists with the same elements for each
key start alike. -/
theorem eq_of_filter_key {xs ys : List α} (sortedX : xs.Pairwise fun a b => key a ≤ key b)
    (sortedY : ys.Pairwise fun a b => key a ≤ key b)
    (same : ∀ k, xs.filter (key · = k) = ys.filter (key · = k)) : xs = ys := by
  induction xs generalizing ys with
  | nil =>
    refine (List.eq_nil_iff_forall_not_mem.mpr fun a member => ?_).symm
    exact List.not_mem_nil (mem_of_filter_key key (fun k => (same k).symm) member)
  | cons x xs ih =>
    cases ys with
    | nil => exact absurd (mem_of_filter_key key same List.mem_cons_self) List.not_mem_nil
    | cons y ys =>
      obtain ⟨firstX, restX⟩ := List.pairwise_cons.mp sortedX
      obtain ⟨firstY, restY⟩ := List.pairwise_cons.mp sortedY
      have above : key y ≤ key x := by
        rcases List.mem_cons.mp (mem_of_filter_key key same List.mem_cons_self) with rfl | later
        · exact le_refl _
        · exact firstY x later
      have below : key x ≤ key y := by
        rcases List.mem_cons.mp (mem_of_filter_key key (fun k => (same k).symm) List.mem_cons_self) with
          rfl | later
        · exact le_refl _
        · exact firstX y later
      have keys : key x = key y := le_antisymm below above
      have heads := same (key x)
      rw [List.filter_cons_of_pos (by simp), List.filter_cons_of_pos (by simp [keys])] at heads
      obtain ⟨rfl, -⟩ := List.cons.inj heads
      have rest : ∀ k, xs.filter (key · = k) = ys.filter (key · = k) := by
        intro k
        have whole := same k
        by_cases here : key x = k
        · rw [List.filter_cons_of_pos (by simpa using here), List.filter_cons_of_pos (by simpa using here)] at whole
          exact (List.cons.inj whole).2
        · rwa [List.filter_cons_of_neg (by simpa using here), List.filter_cons_of_neg (by simpa using here)] at whole
      exact congrArg (List.cons x) (ih restX restY rest)

end Recast
