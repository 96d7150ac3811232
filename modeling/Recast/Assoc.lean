/-!
# Ordered associations

A table keyed by text that remembers the order in which keys first appeared. Writing a key that is
present keeps its place.
-/

set_option autoImplicit false

namespace Recast

/-- Entries in the order their keys first appeared. -/
abbrev Assoc (α : Type) := List (String × α)

namespace Assoc

variable {α : Type}

def get? (key : String) (table : Assoc α) : Option α := List.lookup key table

def has (key : String) (table : Assoc α) : Bool := table.any fun entry => entry.1 == key

def keys (table : Assoc α) : List String := table.map (·.1)

/-- Replaces the value of a present key in place, or adds the key at the end. -/
def put (key : String) (value : α) : Assoc α → Assoc α
  | [] => [(key, value)]
  | entry :: rest =>
    if entry.1 = key then (key, value) :: rest else entry :: put key value rest

/-- The table of a list of entries, where a later entry overwrites an earlier one in place. -/
def ofEntries (entries : List (String × α)) : Assoc α :=
  entries.foldl (fun table entry => put entry.1 entry.2 table) []

/-- The keys after a write: unchanged if the key was present, else with the key at the end. -/
theorem keys_put (key : String) (value : α) (table : Assoc α) :
    keys (put key value table) = if key ∈ keys table then keys table else keys table ++ [key] := by
  induction table with
  | nil => simp [put, keys]
  | cons entry rest ih =>
    simp only [put]
    by_cases h : entry.1 = key
    · simp [h, keys]
    · simp only [keys, List.map_cons] at ih ⊢
      have h' : ¬ key = entry.1 := fun e => h e.symm
      rw [if_neg h, List.map_cons, ih]
      by_cases hm : key ∈ rest.map (·.1)
      · simp [hm]
      · simp [hm, h']

theorem nodup_keys_put (key : String) (value : α) {table : Assoc α} (distinct : (keys table).Nodup) :
    (keys (put key value table)).Nodup := by
  rw [keys_put]
  split
  · exact distinct
  · rename_i absent
    have apart : ∀ other ∈ keys table, ∀ last ∈ [key], other ≠ last := by
      intro other listed last here same
      exact absent (List.mem_singleton.mp here ▸ same ▸ listed)
    exact List.nodup_append.mpr ⟨distinct, by simp, apart⟩

theorem has_iff_mem_keys {key : String} {table : Assoc α} : table.has key = true ↔ key ∈ table.keys := by
  simp [has, keys]

theorem mem_put {key : String} {value : α} {table : Assoc α} {entry : String × α}
    (member : entry ∈ put key value table) : entry = (key, value) ∨ entry ∈ table := by
  induction table with
  | nil => simpa [put] using member
  | cons first rest ih =>
    rw [put] at member
    split at member
    · rcases List.mem_cons.mp member with here | later
      · exact .inl here
      · exact .inr (List.mem_cons_of_mem first later)
    · rcases List.mem_cons.mp member with here | later
      · exact .inr (by simp [here])
      · exact (ih later).imp id (List.mem_cons_of_mem first)

theorem mem_of_get? {key : String} {value : α} {table : Assoc α} (found : table.get? key = some value) :
    (key, value) ∈ table := by
  rw [get?, List.lookup_eq_some_iff] at found
  obtain ⟨before, behind, rfl, -⟩ := found
  simp

/-- In a table without repeated keys each entry is found by its key. -/
theorem get?_of_mem {table : Assoc α} (distinct : (keys table).Nodup) {entry : String × α}
    (member : entry ∈ table) : table.get? entry.1 = some entry.2 := by
  induction table with
  | nil => simp at member
  | cons first rest ih =>
    simp only [keys, List.map_cons, List.nodup_cons] at distinct
    rcases List.mem_cons.mp member with rfl | later
    · exact List.lookup_cons_self
    · have other : entry.1 ≠ first.1 := fun same => distinct.1 (same ▸ List.mem_map_of_mem later)
      rw [get?, List.lookup_cons, beq_false_of_ne other]
      exact ih distinct.2 later

theorem put_of_not_mem {key : String} (value : α) {table : Assoc α} (new : key ∉ keys table) :
    put key value table = table ++ [(key, value)] := by
  induction table with
  | nil => rfl
  | cons entry rest ih =>
    simp only [keys, List.map_cons, List.mem_cons, not_or] at new
    rw [put, if_neg (Ne.symm new.1), ih new.2, List.cons_append]

/-- Entries with different keys are a table as they stand. -/
theorem ofEntries_of_nodup {entries : List (String × α)} (distinct : (keys entries).Nodup) :
    ofEntries entries = entries := by
  have behind : ∀ (rest table : List (String × α)), (keys (table ++ rest)).Nodup →
      rest.foldl (fun table entry => put entry.1 entry.2 table) table = table ++ rest := by
    intro rest
    induction rest with
    | nil =>
      intro table _
      rw [List.foldl_nil, List.append_nil]
    | cons entry rest ih =>
      intro table distinct
      have shifted : table ++ entry :: rest = table ++ [entry] ++ rest := by simp
      have new : entry.1 ∉ keys table := by
        intro present
        simp only [keys, List.map_append, List.map_cons] at distinct present
        exact (List.nodup_append.mp distinct).2.2 _ present _ (by simp) rfl
      rw [shifted] at distinct ⊢
      rw [List.foldl_cons, put_of_not_mem entry.2 new]
      exact ih (table ++ [entry]) distinct
  exact behind entries [] distinct

end Assoc

end Recast
