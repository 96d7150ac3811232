import Recast.Proofs.Markup.Foreign

/-!
# The root of a forest

The search for the root looks below fragments and guards alone, one branch after the other. A traversal
delivers every node, parents first, and fails behind a value that is no node. Up to the first element both
meet the same nodes, so the search finds what a traversal delivers first, and fails where a traversal fails
in front of it.
-/

set_option autoImplicit false

namespace Recast.Markup

/-- Head and children, if the node is an element. -/
def Node.element? : Node → Option (Head × List Node)
  | .element h children => some (h, children)
  | _ => none

/-! ## Traversals step by step -/

namespace Traversal

variable (t u : Traversal)

theorem andThen_of_some {r : Report} (failed : t.failure = some r) : t.andThen u = t := by
  rw [andThen, failed]
  dsimp only
  rw [← failed]

theorem andThen_of_none (done : t.failure = none) : t.andThen u = ⟨t.visited ++ u.visited, u.failure⟩ := by
  rw [andThen, done]

/-- What waiting for the first element of a traversal comes to. -/
def root : Except Report (Option (Head × List Node)) :=
  match t.visited.findSome? Node.element?, t.failure with
  | some e, _ => .ok (some e)
  | none, some r => .error r
  | none, none => .ok none

/-- The second traversal is waited for only if the first one ends without an element. -/
theorem root_andThen :
    (t.andThen u).root =
      match t.root with
      | .ok none => u.root
      | found => found := by
  cases failed : t.failure with
  | some r =>
    rw [t.andThen_of_some _ failed, root, failed]
    cases t.visited.findSome? Node.element? <;> rfl
  | none =>
    rw [t.andThen_of_none _ failed, root, root, failed, List.findSome?_append]
    cases t.visited.findSome? Node.element? <;> rfl

end Traversal

open Traversal

/-! ## The search -/

-- an element is found before its children are walked; what holds none is found to hold none by walking it
mutual
theorem findRootIn_eq : ∀ n : Node, findRootIn n = (walkNode n).root
  | .element h children => by
    rw [findRootIn, walkNode, root_andThen]
    rfl
  | .fragment children => by
    rw [findRootIn, walkNode, findRoot_eq children, root_andThen]
    rfl
  | .guarded guard child => by
    rw [findRootIn, walkNode, findRootIn_eq child, root_andThen]
    rfl
  | .text content isExpression => rfl
  | .slot name => rfl
  | .foreign typeName => rfl
theorem findRoot_eq : ∀ ns : List Node, findRoot ns = (walk ns).root
  | [] => rfl
  | n :: ns => by
    rw [findRoot, walk, findRootIn_eq n, findRoot_eq ns]
    exact (root_andThen _ _).symm
end

/-- The search for the root of a forest finds the first element that a traversal delivers. It finds none
exactly if a traversal comes to its end without an element, and fails exactly if a traversal fails in front
of any element, in the same way. -/
theorem findRoot_first (ns : List Node) :
    (∀ e, findRoot ns = .ok (some e) ↔ (walk ns).visited.findSome? Node.element? = some e) ∧
    (findRoot ns = .ok none ↔
      (walk ns).failure = none ∧ ∀ n ∈ (walk ns).visited, n.element? = none) ∧
    (∀ r, findRoot ns = .error r ↔
      r.kind = .unhandledNode ∧ (walk ns).failure = some r ∧ ∀ n ∈ (walk ns).visited, n.element? = none) := by
  have kind : ∀ r, (walk ns).failure = some r → r.kind = .unhandledNode := by
    intro r failed
    rw [walk_failure] at failed
    exact Node.kind_of_firstFailure? failed
  simp only [← List.findSome?_eq_none_iff]
  rw [findRoot_eq, root]
  cases (walk ns).visited.findSome? Node.element? with
  | some e => simp
  | none =>
    cases failed : (walk ns).failure with
    | none => simp
    | some r =>
      simp only [reduceCtorEq, Except.error.injEq, Option.some.injEq, and_true, true_and]
      refine ⟨fun _ => trivial, fun s => ⟨?_, fun same => same.2⟩⟩
      rintro rfl
      exact ⟨kind _ failed, rfl⟩

end Recast.Markup
