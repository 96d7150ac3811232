import Recast.Proofs.Plugin.Registry

/-!
# Failed registrations

A registration fails in three ways: the plugin is badly declared, its name is taken, or it is to be a
default for a target that does not exist. The first two are found out before anything is written. The
targets are read only when the plugin is in the registry already, and there it stays: without being a
default, and with its name taken for every later attempt.
-/

set_option autoImplicit false

namespace Recast

theorem Target.parse_eq_error {s : String} {e : Report} (unknown : Target.parse s = .error e) :
    e = { kind := .unsupportedTarget, message := "Unsupported target '" ++ s ++ "'" } := by
  unfold Target.parse at unknown
  split at unknown
  · cases unknown
  · cases unknown
  · cases unknown
    rfl

section Reading

variable {α β ε : Type} {f : α → Except ε β}

/-- Reading a list fails over the first element that cannot be read. -/
theorem first_error_of_mapM {list : List α} {e : ε} (failed : list.mapM f = .error e) :
    ∃ before a behind, list = before ++ a :: behind ∧ (∀ b ∈ before, ∃ c, f b = .ok c) ∧
      f a = .error e := by
  induction list with
  | nil => cases failed
  | cons a list ih =>
    rw [List.mapM_cons] at failed
    cases here : f a with
    | error e' =>
      rw [here] at failed
      cases failed
      exact ⟨[], a, list, rfl, by simp, here⟩
    | ok c =>
      rw [here] at failed
      cases found : list.mapM f with
      | ok cs =>
        rw [found] at failed
        cases failed
      | error e' =>
        rw [found] at failed
        cases failed
        obtain ⟨before, b, behind, rfl, readable, bad⟩ := ih found
        refine ⟨a :: before, b, behind, rfl, ?_, bad⟩
        intro d member
        rcases List.mem_cons.mp member with rfl | later
        · exact ⟨c, here⟩
        · exact readable d later

theorem forall_ok_of_mapM {list : List α} {read : List β} (found : list.mapM f = .ok read) :
    ∀ a ∈ list, ∃ b, f a = .ok b := by
  induction list generalizing read with
  | nil => simp
  | cons a list ih =>
    rw [List.mapM_cons] at found
    cases here : f a with
    | error e =>
      rw [here] at found
      cases found
    | ok b =>
      rw [here] at found
      cases rest : list.mapM f with
      | error e =>
        rw [rest] at found
        cases found
      | ok bs =>
        intro c member
        rcases List.mem_cons.mp member with rfl | later
        · exact ⟨b, here⟩
        · exact ih rest c later

end Reading

namespace Plugin.Registry

/-- The plugin is not let in: it is badly declared, or another one has its name. -/
def Refuses (r : Registry) (p : Plugin) : Prop :=
  (∃ e, p.check = .error e) ∨ p.plainName ∈ r.plugins.keys

/-- No target has the name. -/
def Unknown (target : String) : Prop := ∃ e, Target.parse target = .error e

/-- The report on a name that is taken. -/
def taken (name : String) : Report := failure ("Plugin '" ++ name ++ "' already registered")

/-- The registry with a plugin behind all others, which is no default. -/
def withPlugin (r : Registry) (p : Plugin) : Registry :=
  { r with plugins := r.plugins ++ [(p.plainName, p)] }

theorem withPlugin_ne (r : Registry) (p : Plugin) : r.withPlugin p ≠ r := by
  intro same
  have lengths := congrArg (fun s : Registry => s.plugins.length) same
  simp [withPlugin] at lengths

theorem not_unknown_of_ok {t : String} {target : Target} (read : Target.parse t = .ok target) : ¬ Unknown t := by
  rintro ⟨e, unknown⟩
  rw [read] at unknown
  cases unknown

theorem exists_unknown_iff {targets : List String} :
    (∃ e, targets.mapM Target.parse = .error e) ↔ ∃ t ∈ targets, Unknown t := by
  constructor
  · rintro ⟨e, failed⟩
    obtain ⟨before, t, behind, rfl, -, unknown⟩ := first_error_of_mapM failed
    exact ⟨t, by simp, e, unknown⟩
  · rintro ⟨t, member, unknown⟩
    cases found : targets.mapM Target.parse with
    | error e => exact ⟨e, rfl⟩
    | ok ts =>
      obtain ⟨target, read⟩ := forall_ok_of_mapM found t member
      exact absurd unknown (not_unknown_of_ok read)

/-- What a registration can do: refuse a plugin that is badly declared, refuse a name that is taken,
fail over a target behind the plugin's entry, or succeed. -/
theorem register_outcome (r : Registry) (p : Plugin) (asDefault : Bool) (targets : List String) :
    (∃ e, p.check = .error e ∧ r.register p asDefault targets = (r, .error e)) ∨
    (p.check = .ok () ∧ p.plainName ∈ r.plugins.keys ∧
      r.register p asDefault targets = (r, .error (taken p.plainName))) ∨
    (¬ r.Refuses p ∧ asDefault = true ∧ ∃ e, targets.mapM Target.parse = .error e ∧
      r.register p asDefault targets = (r.withPlugin p, .error e)) ∨
    (¬ r.Refuses p ∧ (asDefault = true → ∃ ts, targets.mapM Target.parse = .ok ts) ∧
      (r.register p asDefault targets).2 = .ok ()) := by
  unfold register
  cases checked : p.check with
  | error e => exact .inl ⟨e, rfl, rfl⟩
  | ok =>
    dsimp only
    by_cases present : r.plugins.has p.plainName = true
    · rw [if_pos present]
      exact .inr (.inl ⟨rfl, Assoc.has_iff_mem_keys.mp present, rfl⟩)
    · have new : p.plainName ∉ r.plugins.keys := fun member => present (Assoc.has_iff_mem_keys.mpr member)
      have allowed : ¬ r.Refuses p := by
        rintro (⟨e, bad⟩ | member)
        · rw [checked] at bad
          cases bad
        · exact new member
      rw [if_neg present, Assoc.put_of_not_mem p new]
      refine .inr (.inr ?_)
      cases asDefault with
      | false => exact .inr ⟨allowed, by simp, rfl⟩
      | true =>
        cases targets with
        | nil => exact .inr ⟨allowed, fun _ => ⟨[], rfl⟩, rfl⟩
        | cons t targets =>
          cases read : (t :: targets).mapM Target.parse with
          | error e => exact .inl ⟨allowed, rfl, e, rfl, rfl⟩
          | ok ts => exact .inr ⟨allowed, fun _ => ⟨ts, rfl⟩, rfl⟩

/-- A registration fails if and only if the plugin is refused or is to be a default for a target that
does not exist; the report is about the plugin's declaration, its name, or the first such target. A
failed registration leaves the registry as it was if and only if the plugin was refused. Otherwise the
plugin stays in the registry without being a default, and whoever tries again under its name is told
that the name is taken. -/
theorem failed_registration_iff (r : Registry) (p : Plugin) (asDefault : Bool) (targets : List String) :
    ((∃ e, (r.register p asDefault targets).2 = .error e) ↔
      r.Refuses p ∨ asDefault = true ∧ ∃ t ∈ targets, Unknown t) ∧
    (∀ e, (r.register p asDefault targets).2 = .error e →
      (p.check = .error e ∨
        p.check = .ok () ∧ p.plainName ∈ r.plugins.keys ∧ e = taken p.plainName ∨
        ¬ r.Refuses p ∧ ∃ before t behind, targets = before ++ t :: behind ∧ (∀ s ∈ before, ¬ Unknown s) ∧
          Unknown t ∧ e = { kind := .unsupportedTarget, message := "Unsupported target '" ++ t ++ "'" }) ∧
      ((r.register p asDefault targets).1 = r ↔ r.Refuses p)) ∧
    (¬ r.Refuses p → asDefault = true → (∃ t ∈ targets, Unknown t) →
      (r.register p asDefault targets).1 = r.withPlugin p ∧
      ∀ (q : Plugin) (again : Bool) (others : List String), q.check = .ok () → q.plainName = p.plainName →
        (r.withPlugin p).register q again others = (r.withPlugin p, .error (taken p.plainName))) := by
  have retry : ∀ (q : Plugin) (again : Bool) (others : List String), q.check = .ok () →
      q.plainName = p.plainName →
        (r.withPlugin p).register q again others = (r.withPlugin p, .error (taken p.plainName)) := by
    intro q again others checked same
    have present : q.plainName ∈ (r.withPlugin p).plugins.keys := by
      simp [same, withPlugin, Assoc.keys]
    obtain ⟨e, bad, -⟩ | ⟨-, -, done⟩ | ⟨allowed, -⟩ | ⟨allowed, -⟩ :=
      (r.withPlugin p).register_outcome q again others
    · rw [checked] at bad
      cases bad
    · rw [done, same]
    · exact absurd (.inr present) allowed
    · exact absurd (.inr present) allowed
  obtain ⟨e, bad, done⟩ | ⟨checked, present, done⟩ | ⟨allowed, isDefault, e, unread, done⟩ |
      ⟨allowed, readable, done⟩ := r.register_outcome p asDefault targets
  · have refused : r.Refuses p := .inl ⟨e, bad⟩
    rw [done]
    refine ⟨iff_of_true ⟨e, rfl⟩ (.inl refused), ?_, fun allowed => absurd refused allowed⟩
    intro e' failed
    cases failed
    exact ⟨.inl bad, iff_of_true rfl refused⟩
  · have refused : r.Refuses p := .inr present
    rw [done]
    refine ⟨iff_of_true ⟨_, rfl⟩ (.inl refused), ?_, fun allowed => absurd refused allowed⟩
    intro e' failed
    cases failed
    exact ⟨.inr (.inl ⟨checked, present, rfl⟩), iff_of_true rfl refused⟩
  · have unknown : ∃ t ∈ targets, Unknown t := exists_unknown_iff.mp ⟨e, unread⟩
    rw [done]
    refine ⟨iff_of_true ⟨e, rfl⟩ (.inr ⟨isDefault, unknown⟩), ?_, fun _ _ _ => ⟨rfl, retry⟩⟩
    intro e' failed
    cases failed
    obtain ⟨before, t, behind, split, readable, here⟩ := first_error_of_mapM unread
    have known : ∀ s ∈ before, ¬ Unknown s := by
      intro s member
      obtain ⟨target, read⟩ := readable s member
      exact not_unknown_of_ok read
    refine ⟨.inr (.inr ⟨allowed, before, t, behind, split, known, ⟨e, here⟩, Target.parse_eq_error here⟩), ?_⟩
    exact iff_of_false (r.withPlugin_ne p) allowed
  · have known : ¬ (asDefault = true ∧ ∃ t ∈ targets, Unknown t) := by
      rintro ⟨isDefault, unknown⟩
      obtain ⟨ts, read⟩ := readable isDefault
      obtain ⟨e, unread⟩ := exists_unknown_iff.mpr unknown
      rw [read] at unread
      cases unread
    rw [done]
    refine ⟨iff_of_false ?_ ?_, ?_, ?_⟩
    · rintro ⟨e, failed⟩
      cases failed
    · rintro (refused | unknown)
      · exact allowed refused
      · exact known unknown
    · intro e failed
      cases failed
    · intro _ isDefault unknown
      exact absurd ⟨isDefault, unknown⟩ known

/-- A default for a target that does not exist, registered first. -/
theorem failed_registration_iff_nowhere :
    let r := ({} : Registry).register metadataConsolidation true ["nowhere"]
    ¬ ({} : Registry).Refuses metadataConsolidation ∧ Unknown "nowhere" ∧
    (∃ e, r.2 = .error e) ∧ r.1 ≠ {} ∧ r.1.plugins.keys = ["metadata-consolidation"] ∧ r.1.defaults = [] ∧
    (r.1.register metadataConsolidation true ["vue"]).2 = .error (taken "metadata-consolidation") := by
  intro r
  have name : metadataConsolidation.plainName = "metadata-consolidation" := by decide +kernel
  have unknown : Unknown "nowhere" := ⟨_, rfl⟩
  have allowed : ¬ ({} : Registry).Refuses metadataConsolidation := by
    rintro (⟨e, bad⟩ | member)
    · rw [check_metadataConsolidation] at bad
      cases bad
    · cases member
  obtain ⟨fails, keeps, stays⟩ := failed_registration_iff {} metadataConsolidation true ["nowhere"]
  obtain ⟨e, failed⟩ := fails.mpr (.inr ⟨rfl, "nowhere", by simp, unknown⟩)
  obtain ⟨left, retry⟩ := stays allowed rfl ⟨"nowhere", by simp, unknown⟩
  have changed : r.1 ≠ {} := fun same => allowed ((keeps e failed).2.mp same)
  have again := retry metadataConsolidation true ["vue"] check_metadataConsolidation rfl
  refine ⟨allowed, unknown, ⟨e, failed⟩, changed, ?_, ?_, ?_⟩
  · rw [left, ← name]
    rfl
  · rw [left]
    rfl
  · rw [left, again, name]

end Plugin.Registry

end Recast
