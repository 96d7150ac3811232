import Recast.Proofs.Plugin.Builtin
import Recast.Proofs.Text.Search

/-!
# Registries in use

A registration adds a plugin behind all others, or changes nothing. So after any number of
registrations, clearings and returns to earlier snapshots the default names are some of the registered
ones, in the order of registration, and looking up a default never fails.
-/

set_option autoImplicit false

namespace Recast.Assoc

variable {α : Type}

theorem get?_append_of_some {key : String} {value : α} {front : Assoc α} (found : front.get? key = some value)
    (back : Assoc α) : get? key (front ++ back) = some value := by
  rw [get?, List.lookup_eq_some_iff] at found ⊢
  obtain ⟨before, behind, rfl, absent⟩ := found
  exact ⟨before, behind ++ back, by simp, absent⟩

end Recast.Assoc

namespace Recast.Plugin

theorem plainName_ne_empty {p : Plugin} (checked : p.check = .ok ()) : p.plainName ≠ "" := by
  intro blank
  rw [check] at checked
  simp only [blank, if_true] at checked
  cases checked

namespace Registry

/-- What every registry has in common: the defaults are registered, in the same order as all plugins,
and each plugin stands under its own name, which no other has. -/
structure Sound (r : Registry) : Prop where
  defaults : r.defaults.keys.Sublist r.plugins.keys
  distinct : r.plugins.keys.Nodup
  checked : ∀ entry ∈ r.plugins, entry.2.check = .ok () ∧ entry.1 = entry.2.plainName

/-- Whether a name belongs to a default for a target. -/
def isDefault (r : Registry) (target : Target) (name : String) : Bool :=
  (r.defaults.get? name).any fun targets => targets.all (·.contains target)

/-! ## Steps -/

/-- A registration changes nothing, or it adds a plugin whose name is new, as a default or not. -/
theorem register_cases (r : Registry) (p : Plugin) (asDefault : Bool) (targets : List String) :
    (r.register p asDefault targets).1 = r ∨
    p.check = .ok () ∧ p.plainName ∉ r.plugins.keys ∧
      ((r.register p asDefault targets).1 = { r with plugins := r.plugins ++ [(p.plainName, p)] } ∨
        ∃ ts, (r.register p asDefault targets).1 =
          { plugins := r.plugins ++ [(p.plainName, p)], defaults := r.defaults.put p.plainName ts }) := by
  rw [register]
  cases checked : p.check with
  | error e => exact .inl rfl
  | ok =>
    dsimp only
    by_cases present : r.plugins.has p.plainName = true
    · rw [if_pos present]
      exact .inl rfl
    · have new : p.plainName ∉ r.plugins.keys := fun member => present (Assoc.has_iff_mem_keys.mpr member)
      rw [if_neg present, Assoc.put_of_not_mem p new]
      refine .inr ⟨rfl, new, ?_⟩
      split
      · exact .inl rfl
      · split
        · exact .inr ⟨none, rfl⟩
        · split
          · exact .inl rfl
          · exact .inr ⟨_, rfl⟩

theorem Sound.empty : Sound {} := ⟨.slnil, .nil, fun _ member => absurd member List.not_mem_nil⟩

/-- A sound registry stays sound with a new plugin at the end, which may be a default. -/
theorem Sound.add {r : Registry} (sound : r.Sound) {p : Plugin} (checked : p.check = .ok ())
    (new : p.plainName ∉ r.plugins.keys) {defaults : Assoc (Option (List Target))}
    (named : defaults.keys = r.defaults.keys ∨ defaults.keys = r.defaults.keys ++ [p.plainName]) :
    Sound { plugins := r.plugins ++ [(p.plainName, p)], defaults } := by
  have names : Assoc.keys (r.plugins ++ [(p.plainName, p)]) = r.plugins.keys ++ [p.plainName] := by
    simp [Assoc.keys]
  refine ⟨?_, ?_, ?_⟩
  · change (Assoc.keys defaults).Sublist (Assoc.keys (r.plugins ++ [(p.plainName, p)]))
    rw [names]
    rcases named with same | longer
    · rw [same]
      exact sound.defaults.trans (List.sublist_append_left _ _)
    · rw [longer]
      exact sound.defaults.append (.refl _)
  · change (Assoc.keys (r.plugins ++ [(p.plainName, p)])).Nodup
    rw [names, List.nodup_append]
    refine ⟨sound.distinct, by simp, fun name member other here same => new ?_⟩
    rwa [← List.mem_singleton.mp here, ← same]
  · intro entry member
    rcases List.mem_append.mp member with earlier | here
    · exact sound.checked entry earlier
    · rw [List.mem_singleton.mp here]
      exact ⟨checked, rfl⟩

theorem Sound.register {r : Registry} (sound : r.Sound) (p : Plugin) (asDefault : Bool)
    (targets : List String) : (r.register p asDefault targets).1.Sound := by
  obtain same | ⟨checked, new, same | ⟨ts, same⟩⟩ := r.register_cases p asDefault targets
  · rwa [same]
  · rw [same]
    exact sound.add checked new (.inl rfl)
  · rw [same]
    have absent : p.plainName ∉ r.defaults.keys := fun member => new (sound.defaults.subset member)
    exact sound.add checked new (.inr (by rw [Assoc.keys_put, if_neg absent]))

/-- Plugins that are registered stay where they are when another one is. -/
theorem prefix_register (r : Registry) (p : Plugin) (asDefault : Bool) (targets : List String) :
    r.plugins <+: (r.register p asDefault targets).1.plugins := by
  obtain same | ⟨-, -, same | ⟨ts, same⟩⟩ := r.register_cases p asDefault targets
  · have kept : (r.register p asDefault targets).1.plugins = r.plugins := by rw [same]
    exact ⟨[], by rw [List.append_nil, kept]⟩
  · rw [same]
    exact List.prefix_append _ _
  · rw [same]
    exact List.prefix_append _ _

/-- A step that takes nothing out of the registry. -/
def Step.isKeeping : Step → Bool
  | .register _ _ _ => true
  | .snapshot => true
  | .clear => false
  | .restore _ => false

namespace Session

/-- The registry and all its snapshots are sound. -/
def Sound (s : Session) : Prop := s.registry.Sound ∧ ∀ r ∈ s.snapshots, r.Sound

theorem registry_step_register (s : Session) (p : Plugin) (asDefault : Bool) (targets : List String) :
    (s.step (.register p asDefault targets)).registry = (s.registry.register p asDefault targets).1 := by
  rw [step]

theorem Sound.step {s : Session} (sound : s.Sound) (next : Step) : (s.step next).Sound := by
  obtain ⟨now, earlier⟩ := sound
  cases next with
  | register p asDefault targets =>
    rw [Session.step]
    exact ⟨now.register p asDefault targets, earlier⟩
  | clear => exact ⟨.empty, earlier⟩
  | snapshot =>
    refine ⟨now, fun r member => ?_⟩
    rcases List.mem_append.mp member with older | here
    · exact earlier r older
    · rwa [List.mem_singleton.mp here]
  | restore index =>
    refine ⟨?_, earlier⟩
    change (s.snapshots[index]?.getD s.registry).Sound
    cases taken : s.snapshots[index]? with
    | none => exact now
    | some r => exact earlier r (List.mem_of_getElem? taken)

theorem Sound.steps {s : Session} (sound : s.Sound) (list : List Step) : (s.steps list).Sound := by
  induction list generalizing s with
  | nil => exact sound
  | cons next list ih => exact ih (sound.step next)

theorem run_sound (list : List Step) : (run list).registry.Sound :=
  (Sound.steps ⟨.empty, fun _ member => absurd member List.not_mem_nil⟩ list).1

theorem prefix_step (s : Session) {next : Step} (keeping : next.isKeeping = true) :
    s.registry.plugins <+: (s.step next).registry.plugins := by
  cases next with
  | register p asDefault targets =>
    rw [registry_step_register]
    exact s.registry.prefix_register p asDefault targets
  | snapshot => exact List.prefix_rfl
  | clear => cases keeping
  | restore index => cases keeping

theorem prefix_steps (s : Session) {list : List Step} (keeping : ∀ next ∈ list, next.isKeeping = true) :
    s.registry.plugins <+: (s.steps list).registry.plugins := by
  induction list generalizing s with
  | nil => exact List.prefix_rfl
  | cons next list ih =>
    exact (s.prefix_step (keeping next (by simp))).trans
      (ih (s.step next) fun later member => keeping later (by simp [member]))

theorem run_append (list later : List Step) : run (list ++ later) = (run list).steps later :=
  List.foldl_append

end Session

/-! ## The defaults -/

/-- Names in the order of a table give the entries in the order of the table. -/
theorem filterMap_get?_of_sublist {table : Assoc Plugin} (distinct : table.keys.Nodup) {names : List String}
    (part : names.Sublist table.keys) :
    names.filterMap (fun name => table.get? name) =
      (table.filter fun entry => names.contains entry.1).map (·.2) := by
  induction table generalizing names with
  | nil =>
    obtain rfl := List.sublist_nil.mp part
    rfl
  | cons first rest ih =>
    simp only [Assoc.keys, List.map_cons, List.nodup_cons] at distinct part
    have later : ∀ {list : List String}, list.Sublist (rest.map (·.1)) →
        list.filterMap (fun name => Assoc.get? name (first :: rest)) =
          list.filterMap (fun name => Assoc.get? name rest) := by
      intro list inside
      refine List.filterMap_congr fun name member => ?_
      have other : name ≠ first.1 := fun same => distinct.1 (same ▸ inside.subset member)
      rw [Assoc.get?, Assoc.get?, List.lookup_cons, beq_false_of_ne other]
    cases part with
    | cons _ inside =>
      have absent : first.1 ∉ names := fun member => distinct.1 (inside.subset member)
      rw [later inside, ih distinct.2 inside, List.filter_cons_of_neg (by simpa using absent)]
    | cons_cons _ inside =>
      rename_i names
      have same : rest.filter (fun entry => (first.1 :: names).contains entry.1) =
          rest.filter fun entry => names.contains entry.1 := by
        refine List.filter_congr fun entry member => ?_
        have other : entry.1 ≠ first.1 := fun eq => distinct.1 (eq ▸ List.mem_map_of_mem member)
        simp [other]
      rw [List.filterMap_cons, later inside, ih distinct.2 inside, List.filter_cons_of_pos (by simp),
        List.map_cons, same]
      have found : Assoc.get? first.1 (first :: rest) = some first.2 := List.lookup_cons_self
      rw [found]

/-- The entries of the defaults that apply to a target. -/
def applicable (r : Registry) (target : Target) : Assoc (Option (List Target)) :=
  r.defaults.filter fun entry => entry.2.all (·.contains target)

theorem Sound.mem_applicable_iff {r : Registry} (sound : r.Sound) {target : Target} {name : String} :
    name ∈ (r.applicable target).keys ↔ r.isDefault target name = true := by
  have distinct : r.defaults.keys.Nodup := sound.distinct.sublist sound.defaults
  rw [isDefault, Option.any_eq_true]
  constructor
  · intro member
    obtain ⟨entry, listed, rfl⟩ := List.mem_map.mp member
    obtain ⟨inside, applies⟩ := List.mem_filter.mp listed
    exact ⟨entry.2, Assoc.get?_of_mem distinct inside, applies⟩
  · rintro ⟨targets, found, applies⟩
    exact List.mem_map_of_mem (List.mem_filter.mpr ⟨Assoc.mem_of_get? found, applies⟩)

theorem Sound.applicable_sublist {r : Registry} (sound : r.Sound) (target : Target) :
    (r.applicable target).keys.Sublist r.plugins.keys :=
  (List.filter_sublist.map _).trans sound.defaults

/-- The defaults for a target are the plugins that are defaults for it, in the order of registration. -/
theorem Sound.defaultsFor_eq {r : Registry} (sound : r.Sound) (target : Target) :
    r.defaultsFor target = (r.plugins.filter fun entry => r.isDefault target entry.1).map (·.2) := by
  have listed : r.defaultsFor target = (r.applicable target).keys.filterMap fun name => r.plugins.get? name := by
    rw [Assoc.keys, List.filterMap_map]
    rfl
  rw [listed, filterMap_get?_of_sublist sound.distinct (sound.applicable_sublist target)]
  congr 1
  refine List.filter_congr fun entry _ => ?_
  rw [Bool.eq_iff_iff, List.contains_iff_mem, sound.mem_applicable_iff]

theorem mapM_eq_filterMap {α β : Type} {f : α → Option β} {list : List α} (found : ∀ a ∈ list, (f a).isSome = true) :
    list.mapM f = some (list.filterMap f) := by
  induction list with
  | nil => rfl
  | cons a list ih =>
    obtain ⟨b, here⟩ := Option.isSome_iff_exists.mp (found a (by simp))
    rw [List.mapM_cons, here, ih fun c member => found c (by simp [member]), List.filterMap_cons, here]
    rfl

/-- Every default that applies to a target is found under its name. -/
theorem Sound.mapM_applicable {r : Registry} (sound : r.Sound) (target : Target) :
    ((r.applicable target).mapM fun entry => r.plugins.get? entry.1) = some (r.defaultsFor target) := by
  refine mapM_eq_filterMap fun entry member => ?_
  have listed := (sound.applicable_sublist target).subset (List.mem_map_of_mem member)
  obtain ⟨registered, inside, same⟩ := List.mem_map.mp listed
  have found := Assoc.get?_of_mem sound.distinct inside
  rw [same] at found
  rw [found]
  rfl

theorem Sound.plainNames {r : Registry} (sound : r.Sound) {name : String} (member : name ∈ r.plugins.keys) :
    name ≠ "" ∧ Text.strip name = name := by
  obtain ⟨entry, inside, rfl⟩ := List.mem_map.mp member
  obtain ⟨checked, named⟩ := sound.checked entry inside
  refine ⟨named ▸ plainName_ne_empty checked, ?_⟩
  rw [named]
  exact Text.strip_strip entry.2.name

/-- After any steps from an empty registry on, every default is registered, the registered names are
distinct, trimmed and not empty, and the plugins that apply to a target by default are all found, in the
order of registration. Steps that only register or take snapshots add plugins behind those that are
there, so no name comes to mean another plugin. -/
theorem run_invariant (list : List Step) :
    (∀ name ∈ (Session.run list).registry.defaults.keys, name ∈ (Session.run list).registry.plugins.keys) ∧
    (Session.run list).registry.plugins.keys.Nodup ∧
    (∀ name ∈ (Session.run list).registry.plugins.keys, name ≠ "" ∧ Text.strip name = name) ∧
    (∀ later : List Step, (∀ next ∈ later, next.isKeeping = true) →
      (Session.run list).registry.plugins <+: (Session.run (list ++ later)).registry.plugins ∧
      ∀ name p, (Session.run list).registry.plugins.get? name = some p →
        (Session.run (list ++ later)).registry.plugins.get? name = some p) ∧
    ∀ target,
      (((Session.run list).registry.applicable target).mapM fun entry =>
        (Session.run list).registry.plugins.get? entry.1) =
          some ((Session.run list).registry.defaultsFor target) ∧
      (Session.run list).registry.defaultsFor target =
        ((Session.run list).registry.plugins.filter fun entry =>
          (Session.run list).registry.isDefault target entry.1).map (·.2) := by
  have sound := Session.run_sound list
  refine ⟨fun name member => sound.defaults.subset member, sound.distinct, fun name => sound.plainNames,
    fun later keeping => ?_, fun target => ⟨sound.mapM_applicable target, sound.defaultsFor_eq target⟩⟩
  have kept := Session.prefix_steps (Session.run list) keeping
  rw [← Session.run_append] at kept
  refine ⟨kept, fun name p found => ?_⟩
  obtain ⟨added, whole⟩ := kept
  rw [← whole]
  exact Assoc.get?_append_of_some found added

/-! ## A session with a failed registration and a return to a snapshot -/

/-- A default is registered and kept in a snapshot. Then a plugin for a target that does not exist, a
clearing, and the return to the snapshot. -/
def revisited : List Step := [
  .register metadataConsolidation true [], .snapshot, .register svelteRunes true ["nowhere"], .clear,
  .restore 0]

theorem registry_revisited : (Session.run revisited).registry =
    { plugins := [("metadata-consolidation", metadataConsolidation)]
      defaults := [("metadata-consolidation", none)] } := by
  have kept : (Session.run revisited).registry = (({} : Registry).register metadataConsolidation true).1 := rfl
  rw [kept, register_metadataConsolidation]

theorem run_invariant_revisited :
    "metadata-consolidation" ∈ (Session.run revisited).registry.plugins.keys ∧
    Text.strip "metadata-consolidation" = "metadata-consolidation" ∧
    (Session.run (revisited ++ [.register metadataConsolidation false [], .snapshot])).registry.plugins.get?
      "metadata-consolidation" = some metadataConsolidation ∧
    (Session.run revisited).registry.defaultsFor .vue = [metadataConsolidation] := by
  obtain ⟨defaults, -, plain, stable, listed⟩ := run_invariant revisited
  have isDefault : "metadata-consolidation" ∈ (Session.run revisited).registry.defaults.keys := by
    simp [registry_revisited, Assoc.keys]
  have found : (Session.run revisited).registry.plugins.get? "metadata-consolidation" =
      some metadataConsolidation := by
    rw [registry_revisited]
    rfl
  have keeping : ∀ next ∈ [Step.register metadataConsolidation false [], .snapshot], next.isKeeping = true := by
    simp [Step.isKeeping]
  have registered := defaults _ isDefault
  refine ⟨registered, (plain _ registered).2, (stable _ keeping).2 _ _ found, ?_⟩
  rw [(listed .vue).2, registry_revisited]
  rfl

end Registry

end Recast.Plugin
