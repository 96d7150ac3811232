import Recast.Proofs.Plugin.Isolation
import Recast.Proofs.Plugin.Registry
import Recast.Proofs.Sorting

/-!
# The order of plugins

A pipeline runs its plugins by ascending order, and those of one order as they were given. There is one such
arrangement, so it does not matter whether plugins come all at once or are added to a pipeline group by
group.
-/

set_option autoImplicit false

namespace Recast.Plugin

/-- A list has the plugins that were given, by ascending order, and those of one order as they were given. -/
structure Arranges (given arranged : List Plugin) : Prop where
  all : arranged.Perm given
  ascending : arranged.Pairwise fun p q => p.orderNumber ≤ q.orderNumber
  ties : ∀ n : Int, arranged.filter (·.orderNumber = n) = given.filter (·.orderNumber = n)

/-- Arranging an arrangement with more plugins behind it arranges all of them. -/
theorem Arranges.append {given arranged more whole : List Plugin} (first : Arranges given arranged)
    (second : Arranges (arranged ++ more) whole) : Arranges (given ++ more) whole where
  all := second.all.trans (first.all.append_right more)
  ascending := second.ascending
  ties n := by rw [second.ties, List.filter_append, first.ties, List.filter_append]

namespace Pipeline

theorem arranges_sort (given : List Plugin) : Arranges given (sort given) where
  all := List.mergeSort_perm _ _
  ascending := pairwise_mergeSort_key orderNumber given
  ties n := by
    refine filter_mergeSort_key orderNumber (fun p q first second => ?_) given
    rw [of_decide_eq_true first, of_decide_eq_true second]

theorem eq_sort_of_arranges {given arranged : List Plugin} (h : Arranges given arranged) :
    arranged = sort given := by
  have sorted := arranges_sort given
  refine eq_of_filter_key orderNumber h.ascending sorted.ascending fun n => ?_
  rw [h.ties, sorted.ties]

theorem sort_append (given more : List Plugin) : sort (sort given ++ more) = sort (given ++ more) :=
  eq_sort_of_arranges (.append (arranges_sort given) (arranges_sort _))

/-! ## Adding plugins -/

theorem forM_check_append {ps : List Plugin} (checked : ∀ p ∈ ps, p.check = .ok ()) (more : List Plugin) :
    (ps ++ more).forM Plugin.check = more.forM Plugin.check := by
  induction ps with
  | nil => rfl
  | cons p ps ih =>
    have step : (p :: ps ++ more).forM Plugin.check = p.check >>= fun _ => (ps ++ more).forM Plugin.check := rfl
    rw [step, checked p (by simp)]
    exact ih fun q member => checked q (by simp [member])

theorem forM_check_append_of_error {ps : List Plugin} {e : Report} (failed : ps.forM Plugin.check = .error e)
    (more : List Plugin) : (ps ++ more).forM Plugin.check = .error e := by
  induction ps with
  | nil => cases failed
  | cons p ps ih =>
    have step : ∀ qs : List Plugin, (p :: qs).forM Plugin.check = p.check >>= fun _ => qs.forM Plugin.check :=
      fun _ => rfl
    rw [List.cons_append, step]
    rw [step] at failed
    cases first : p.check with
    | error e' =>
      rw [first] at failed
      exact failed
    | ok u =>
      rw [first] at failed
      exact ih failed

/-- A plugin that is refused is refused at once or when it is added, whichever comes first in the lists. -/
theorem make_add (ps more : List Plugin) : (make ps >>= fun p => p.add more) = make (ps ++ more) := by
  cases first : ps.forM Plugin.check with
  | error e =>
    rw [make, make, first, forM_check_append_of_error first]
    rfl
  | ok u =>
    have checked := check_of_forM first
    have sorted : ∀ p ∈ sort ps, p.check = .ok () := fun p member =>
      checked p ((arranges_sort ps).all.mem_iff.mp member)
    have made : make ps = .ok ⟨sort ps⟩ := make_eq_ok_iff.mpr ⟨checked, rfl⟩
    rw [made]
    change make (sort ps ++ more) = make (ps ++ more)
    rw [make, make, forM_check_append sorted, forM_check_append checked, sort_append]

/-- Adding groups of plugins one after the other makes the pipeline of all of them. -/
theorem make_foldlM_add (ps : List Plugin) (groups : List (List Plugin)) :
    (make ps >>= fun p => groups.foldlM add p) = make (ps ++ groups.flatten) := by
  induction groups generalizing ps with
  | nil =>
    rw [List.flatten_nil, List.append_nil]
    exact bind_pure _
  | cons more groups ih =>
    have next : (make ps >>= fun p => (more :: groups).foldlM add p) =
        (make ps >>= fun p => p.add more) >>= fun p => groups.foldlM add p := by
      rw [bind_assoc]
      rfl
    rw [next, make_add, ih, List.flatten_cons, List.append_assoc]

end Pipeline

theorem order_eq_of_check {p : Plugin} (checked : p.check = .ok ()) : p.order = .int p.orderNumber := by
  have named := plainName_ne_empty checked
  unfold check at checked
  cases order : p.order with
  | int n => rw [orderNumber, order]
  | _ =>
    simp only [named, order, if_false] at checked
    cases checked

/-- However plugins are spread over a pipeline and two groups that are added to it, the result is that of
giving all of them at once, with the same report if one of them is refused. Plugins that are all accepted make
a pipeline, and it has the one arrangement of them by their orders in which ties are as they were given. -/
theorem make_add_add (ps a b : List Plugin) :
    (do let p ← Pipeline.make ps
        let q ← p.add a
        q.add b) = Pipeline.make (ps ++ a ++ b) ∧
    ((∀ p ∈ ps ++ a ++ b, p.check = .ok ()) →
      ∃ pipeline, Pipeline.make (ps ++ a ++ b) = .ok pipeline ∧
        (∀ p ∈ pipeline.plugins, p.order = .int p.orderNumber) ∧
        ∀ arranged, Arranges (ps ++ a ++ b) arranged ↔ arranged = pipeline.plugins) := by
  constructor
  · have all := Pipeline.make_foldlM_add ps [a, b]
    rw [List.flatten_cons, List.flatten_cons, List.flatten_nil, List.append_nil, ← List.append_assoc] at all
    rw [← all]
    simp only [List.foldlM_cons, List.foldlM_nil, bind_pure]
  · intro checked
    have sorted := Pipeline.arranges_sort (ps ++ a ++ b)
    refine ⟨⟨Pipeline.sort (ps ++ a ++ b)⟩, Pipeline.make_eq_ok_iff.mpr ⟨checked, rfl⟩, fun p member => ?_,
      fun arranged => ⟨Pipeline.eq_sort_of_arranges, ?_⟩⟩
    · exact order_eq_of_check (checked p (sorted.all.mem_iff.mp member))
    · rintro rfl
      exact sorted

/-- Two plugins, one that is added with the order of the second, and two more, one of this order again. -/
def spread (i : Nat) : List Plugin :=
  let note := SourceAction.common (.warn "seen")
  match i with
  | 0 => [scripted "late" 30 note, scripted "early" 10 note]
  | 1 => [scripted "tie" 10 note]
  | _ => [scripted "middle" 20 note, scripted "last tie" 10 note]

theorem make_add_add_spread :
    (∀ p ∈ spread 0 ++ spread 1 ++ spread 2, p.check = .ok ()) ∧
    ∃ pipeline, (do let p ← Pipeline.make (spread 0)
                    let q ← p.add (spread 1)
                    q.add (spread 2)) = .ok pipeline ∧
      pipeline.names = ["early", "tie", "last tie", "middle", "late"] := by
  obtain ⟨same, made⟩ := make_add_add (spread 0) (spread 1) (spread 2)
  have checked : ∀ p ∈ spread 0 ++ spread 1 ++ spread 2, p.check = .ok () := by
    intro p member
    simp only [spread, List.cons_append, List.nil_append, List.mem_cons, List.not_mem_nil, or_false] at member
    rcases member with rfl | rfl | rfl | rfl | rfl <;> exact check_eq_ok (by decide +kernel)
  obtain ⟨pipeline, whole, -, arranged⟩ := made checked
  refine ⟨checked, pipeline, same.trans whole, ?_⟩
  let note := SourceAction.common (.warn "seen")
  have order : Arranges (spread 0 ++ spread 1 ++ spread 2) [scripted "early" 10 note, scripted "tie" 10 note,
      scripted "last tie" 10 note, scripted "middle" 20 note, scripted "late" 30 note] := by
    refine ⟨?_, ?_, fun n => ?_⟩
    · exact .trans (.cons _ (.cons _ (.swap _ _ _))) (List.perm_append_singleton _ [_, _, _, _])
    · simp [scripted, orderNumber]
    · by_cases ten : (10 : Int) = n
      · subst ten
        rfl
      · by_cases twenty : (20 : Int) = n
        · subst twenty
          rfl
        · by_cases thirty : (30 : Int) = n
          · subst thirty
            rfl
          · simp [spread, scripted, orderNumber, ten, twenty, thirty]
  rw [Pipeline.names, ← (arranged _).mp order]
  rfl

end Recast.Plugin
