import Recast.Analysis.Variants
import Recast.Proofs.Analysis.Note

/-!
# Configurations that are read are consistent

Every call of the variant builder, however odd its arguments, gives a configuration whose defaults
name axes and whose axes have values.
-/

set_option autoImplicit false

namespace Recast

/-- Defaults name axes, and axes have values. -/
structure VariantConfig.Consistent (c : VariantConfig) : Prop where
  declared : ∀ key ∈ c.defaults.keys, c.hasAxis key = true
  inhabited : ∀ axis ∈ c.variants, axis.2 ≠ []

theorem VariantConfig.check_eq_ok_iff (c : VariantConfig) :
    c.check = .ok c ↔ ∀ key ∈ c.defaults.keys, c.hasAxis key = true := by
  have stray : c.strayDefaults = [] ↔ ∀ key ∈ c.defaults.keys, c.hasAxis key = true := by
    simp [strayDefaults, List.filter_eq_nil_iff]
  rw [← stray, check]
  cases c.strayDefaults <;> simp

namespace Analysis

open Recast.Tsx

/-- Axes are put into an empty table one after the other, each with values. -/
theorem axesOf_all {P : Assoc (Assoc String) → Prop} (empty : P [])
    (put : ∀ table axis values, P table → values ≠ [] → P (table.put axis values)) (name : String)
    (t : Option Tree) : Yields P (axesOf name t) := by
  cases t with
  | none => exact Yields.pure empty
  | some t =>
    rw [axesOf]
    split
    · exact Yields.after fun _ => Yields.pure empty
    · refine Yields.foldlM _ empty fun table built pair _ => ?_
      split
      · exact Yields.pure built
      · split
        · exact Yields.after fun _ => Yields.pure built
        · refine Yields.pure ?_
          split
          · exact built
          · rename_i axis _ _ _ _ full
            exact put table axis _ built (by simpa using full)

theorem axesOf_inhabited (name : String) (t : Option Tree) :
    Yields (fun table => ∀ axis ∈ table, axis.2 ≠ []) (axesOf name t) := by
  refine axesOf_all (by simp) ?_ name t
  intro table axis values inhabited full entry member
  rcases Assoc.mem_put member with rfl | old
  · exact full
  · exact inhabited entry old

theorem axesOf_nodup (name : String) (t : Option Tree) :
    Yields (fun table => table.keys.Nodup) (axesOf name t) := by
  refine axesOf_all (P := fun table => table.keys.Nodup) List.nodup_nil ?_ name t
  intro table axis values distinct _
  exact Assoc.nodup_keys_put axis values distinct

theorem variantWith_consistent (name baseClasses : String) (options : Option Tree) :
    Yields VariantConfig.Consistent (variantWith name baseClasses options) := by
  refine (axesOf_inhabited name _).bind fun variants inhabited => ?_
  refine Yields.after fun _ => Yields.pure ⟨?_, inhabited⟩
  -- only defaults with an axis are kept
  intro key member
  obtain ⟨entry, kept, rfl⟩ := List.mem_map.mp member
  exact (List.mem_filter.mp kept).2

theorem variantWith_axes (name baseClasses : String) (options : Option Tree) :
    Yields (fun c => c.axes.Nodup) (variantWith name baseClasses options) := by
  refine (axesOf_nodup name _).bind fun variants distinct => ?_
  exact Yields.after fun _ => Yields.pure distinct

section Configs

variable {P : VariantConfig → Prop}
  (each : ∀ name baseClasses options, Yields P (variantWith name baseClasses options))

include each

theorem variantOfCall?_all (call : Tree) (name : String) :
    Yields (fun config => ∀ c ∈ config, P c) (variantOfCall? call name) := by
  rw [variantOfCall?]
  split
  · exact Yields.after fun _ => Yields.pure (by simp)
  · refine Yields.after fun baseClasses => ?_
    refine Yields.warned ?_ _ _
    refine (each name baseClasses _).bind fun config holds => ?_
    exact Yields.pure (by simpa using holds)

/-- What holds of every configuration that is read holds of those of a source. -/
theorem variantConfigsOf_all (root : Tree) :
    Yields (fun configs => ∀ entry ∈ configs, P entry.2) (variantConfigsOf root) := by
  refine Yields.foldlM _ (by simp) fun configs hold call _ => ?_
  refine (variantOfCall?_all each call.2 _).bind fun config holds => ?_
  cases config with
  | none => exact Yields.pure hold
  | some c =>
    refine Yields.pure fun entry member => ?_
    rcases Assoc.mem_put member with rfl | old
    · exact holds c rfl
    · exact hold entry old

end Configs

/-- Every configuration of a source is consistent. -/
theorem variantConfigsOf_consistent (root : Tree) :
    Yields (fun configs => ∀ entry ∈ configs, entry.2.Consistent) (variantConfigsOf root) :=
  variantConfigsOf_all variantWith_consistent root

end Analysis

end Recast
