import Recast.Proofs.Generate.Import

/-!
# Names that scripts import themselves

Such a name is taken out of the list of a carried import, but not out of its default or its namespace. A script
that imports the name itself then binds it twice.
-/

set_option autoImplicit false

namespace Recast.Generate

section

variable {target : Target} {i carried : Import} {name : String}

theorem not_mem_named_of_own (own : name ∈ ownNames) (carries : carriedImport? target i = some carried) :
    name ∉ carried.named := by
  rw [carriedImport?_eq_some carries]
  simp [own]

theorem carried_binds_iff (own : name ∈ ownNames) (carries : carriedImport? target i = some carried) :
    carried.binds name = true ↔ i.default = some name ∨ i.namespaceName = some name := by
  have unlisted := not_mem_named_of_own own carries
  have default : carried.default = i.default := by rw [carriedImport?_eq_some carries]
  have whole : carried.namespaceName = i.namespaceName := by rw [carriedImport?_eq_some carries]
  simp [Import.binds, unlisted, default, whole]

theorem category_of_carried (carries : carriedImport? target i = some carried) : isDropped i.category = false := by
  cases dropped : isDropped i.category with
  | false => rfl
  | true => simp [carriedImport?, dropped] at carries

/-- An import is never left out for the names it lists if it binds something besides them. -/
theorem exists_carried (target : Target) (stays : isDropped i.category = false) (nonempty : name ≠ "")
    (binds : i.default = some name ∨ i.namespaceName = some name) :
    ∃ carried, carriedImport? target i = some carried := by
  rcases binds with default | whole
  · simp [carriedImport?, stays, default, nonempty]
  · simp [carriedImport?, stays, whole, nonempty]

end

/-- A carried import lists none of the names that scripts import themselves. It still binds one exactly
where an import of a kept category has that name as its default or its namespace. -/
theorem carried_binds_own_iff (m : Metadata) (target : Target) {name : String} (own : name ∈ ownNames) :
    (∀ carried ∈ carriedImports m.imports target, name ∉ carried.named) ∧
      ((∃ carried ∈ carriedImports m.imports target, carried.binds name = true) ↔
        ∃ i ∈ m.imports, isDropped i.category = false ∧
          (i.default = some name ∨ i.namespaceName = some name)) := by
  simp only [carriedImports, List.mem_filterMap]
  refine ⟨?_, ?_, ?_⟩
  · rintro carried ⟨i, -, carries⟩
    exact not_mem_named_of_own own carries
  · rintro ⟨carried, ⟨i, member, carries⟩, binds⟩
    exact ⟨i, member, category_of_carried carries, (carried_binds_iff own carries).mp binds⟩
  · rintro ⟨i, member, stays, binds⟩
    have nonempty : name ≠ "" := by
      rintro rfl
      revert own
      decide
    obtain ⟨carried, carries⟩ := exists_carried target stays nonempty binds
    exact ⟨carried, ⟨i, member, carries⟩, (carried_binds_iff own carries).mpr binds⟩

/-- A class helper that the source takes as the default of a package of its own. -/
theorem carried_binds_own_iff_default :
    "cn" ∈ ownNames ∧
      ∃ carried ∈ carriedImports [{ source := "classnames", default := some "cn" }] .svelte,
        carried.binds "cn" = true := by
  have own : "cn" ∈ ownNames := by decide
  let m : Metadata := { imports := [{ source := "classnames", default := some "cn" }] }
  exact ⟨own, (carried_binds_own_iff m .svelte own).2.mpr
    ⟨{ source := "classnames", default := some "cn" }, by simp [m], rfl, .inl rfl⟩⟩

end Recast.Generate
