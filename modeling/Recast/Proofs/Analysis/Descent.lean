import Recast.Analysis.Markup

/-!
# Conversion goes down

Converting a tree looks at smaller trees only. The levels that `convert` counts are therefore always
enough, and it satisfies the equation one would write without them.
-/

set_option autoImplicit false

namespace Recast.Tsx.Tree

theorem unwrap_depth_le {t u : Tree} (unwrapped : t.unwrap = some u) : u.depth ≤ t.depth := by
  fun_induction unwrap t with
  | case1 => cases unwrapped
  | case2 t _ c rest parts ih =>
    have below : c.depth < t.depth := depth_lt_of_mem_parts (by simp [parts])
    exact Nat.le_trans (ih unwrapped) (Nat.le_of_lt below)
  | case3 => exact Nat.le_of_eq (congrArg depth (Option.some.inj unwrapped).symm)

end Recast.Tsx.Tree

namespace Recast.Analysis

open Recast.Tsx Recast.Markup

/-- Two conversions that cannot be told apart below a level. -/
def AgreeBelow (depth : Nat) (f g : Tree → Noting (List Node)) : Prop := ∀ t, t.depth < depth → f t = g t

theorem AgreeBelow.mono {depth depth' : Nat} {f g : Tree → Noting (List Node)} (agree : AgreeBelow depth f g)
    (le : depth' ≤ depth) : AgreeBelow depth' f g :=
  fun t lt => agree t (Nat.lt_of_lt_of_le lt le)

variable {f g : Tree → Noting (List Node)} {t : Tree}

theorem mapM_congr {items : List Tree} (each : ∀ c ∈ items, f c = g c) : items.mapM f = items.mapM g := by
  induction items with
  | nil => rfl
  | cons c items ih =>
    rw [List.mapM_cons, List.mapM_cons, each c (by simp), ih fun d member => each d (by simp [member])]

theorem childrenOf_congr (agree : AgreeBelow t.depth f g) : childrenOf f t = childrenOf g t := by
  have each : ∀ c ∈ t.parts.filter (fun c => c.kind ≠ .openingTag && c.kind ≠ .closingTag), f c = g c :=
    fun c member => agree c (Tree.depth_lt_of_mem_parts (List.mem_filter.mp member).1)
  rw [childrenOf, childrenOf, mapM_congr each]

theorem guardedBranch_congr {role : Role} (agree : AgreeBelow t.depth f g) (guard : String) :
    guardedBranch f guard (t.field? role) = guardedBranch g guard (t.field? role) := by
  rw [guardedBranch, guardedBranch]
  cases found : (t.field? role).filter isMarkup with
  | none => rfl
  | some branch =>
    have below := Tree.depth_lt_of_field? (Option.filter_eq_some_iff.mp found).1
    simp only [agree branch below]

theorem expressionChild_congr (agree : AgreeBelow t.depth f g) :
    expressionChild f t = expressionChild g t := by
  rw [expressionChild, expressionChild]
  cases found : t.parts.head?.bind Tree.unwrap with
  | none => rfl
  | some e =>
    obtain ⟨c, first, unwrapped⟩ := Option.bind_eq_some_iff.mp found
    have inside : e.depth ≤ t.depth :=
      Nat.le_trans (Tree.unwrap_depth_le unwrapped)
        (Nat.le_of_lt (Tree.depth_lt_of_mem_parts (List.mem_of_head? first)))
    simp only [guardedBranch_congr (agree.mono inside)]

theorem convertNode_congr (ctx : MarkupContext) (agree : AgreeBelow t.depth f g) :
    convertNode ctx f t = convertNode ctx g t := by
  rw [convertNode, convertNode]
  cases unwrapped : t.unwrap with
  | none => rfl
  | some u =>
    have inside := agree.mono (Tree.unwrap_depth_le unwrapped)
    have element : ∀ tag, elementOf ctx f tag (some u) = elementOf ctx g tag (some u) := by
      intro tag
      simp only [elementOf, childrenOf_congr inside]
    have closed : ∀ tag, elementOf ctx f tag none = elementOf ctx g tag none := fun _ => rfl
    simp only [childrenOf_congr inside, element, closed, expressionChild_congr inside]

/-- Levels beyond the depth of a tree change nothing. -/
theorem convertUpTo_eq (ctx : MarkupContext) {n m : Nat} (enough : t.depth < n) (enough' : t.depth < m) :
    convertUpTo ctx n t = convertUpTo ctx m t := by
  induction n generalizing m t with
  | zero => omega
  | succ n ih =>
    cases m with
    | zero => omega
    | succ m =>
      refine convertNode_congr ctx fun u below => ?_
      exact ih (by omega) (by omega)

theorem convert_eq (ctx : MarkupContext) (t : Tree) : convert ctx t = convertNode ctx (convert ctx) t := by
  refine convertNode_congr ctx fun u below => ?_
  exact convertUpTo_eq ctx below (Nat.lt_succ_self _)

end Recast.Analysis
