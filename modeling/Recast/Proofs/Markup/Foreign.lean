import Recast.Proofs.Markup.Sound

/-!
# Values that are no nodes

A forest may hold a value of another kind at any place. `Node.Built` says how a forest is made otherwise, and
`Node.Within` where something stands in it, by steps from a node to its children. A traversal ends with the first
such value, if there is one.
-/

set_option autoImplicit false

namespace Recast.Markup

namespace Node

/-- Nodes as they are made, over values of any kind. -/
inductive Built : Node → Prop
  | element {h : Head} {children : List Node} {n : Node} (made : make h children = .ok n)
      (below : ∀ child ∈ children, Built child) : Built n
  | text (content : String) (isExpression : Bool) : Built (text content isExpression)
  | fragment {children : List Node} (below : ∀ child ∈ children, Built child) : Built (fragment children)
  | guarded (guard : String) {child : Node} (below : Built child) : Built (guarded guard child)
  | slot (name : String) : Built (slot name)
  | foreign (typeName : String) : Built (foreign typeName)

/-- A node stands somewhere in a forest. -/
inductive Within (m : Node) : List Node → Prop
  | here {ns : List Node} : m ∈ ns → Within m ns
  | deeper {n : Node} {ns : List Node} : n ∈ ns → Within m n.children → Within m ns

theorem eq_of_make {h : Head} {children : List Node} {n : Node} (made : make h children = .ok n) :
    n = element h children ∧ (h.isVoid = true → children = []) := by
  unfold make at made
  split at made
  · cases made
  · rename_i allowed
    refine ⟨(Except.ok.inj made).symm, fun isVoid => ?_⟩
    simpa [isVoid] using allowed

theorem Within.mono {m : Node} {ns ms : List Node} (within : Within m ns) (sub : ns ⊆ ms) : Within m ms := by
  cases within with
  | here member => exact .here (sub member)
  | deeper member within => exact .deeper (sub member) within

theorem Within.of_children {m n : Node} (within : Within m n.children) : Within m [n] :=
  .deeper List.mem_cons_self within

theorem preorder_eq (n : Node) : n.preorder = n :: preorderList n.children := by
  cases n with
  | guarded guard child => rw [preorder, children, preorderList, preorderList, List.append_nil]
  | element h children => rw [preorder, Node.children]
  | fragment children => rw [preorder, Node.children]
  | text content isExpression => rfl
  | slot name => rfl
  | foreign typeName => rfl

mutual
theorem within_of_mem_preorder : ∀ (n m : Node), m ∈ n.preorder → Within m [n]
  | .element h children, m, member => by
    rw [preorder_eq, List.mem_cons] at member
    rcases member with rfl | below
    · exact .here List.mem_cons_self
    · exact .of_children (within_of_mem_preorderList children m below)
  | .fragment children, m, member => by
    rw [preorder_eq, List.mem_cons] at member
    rcases member with rfl | below
    · exact .here List.mem_cons_self
    · exact .of_children (within_of_mem_preorderList children m below)
  | .guarded guard child, m, member => by
    rw [preorder, List.mem_cons] at member
    rcases member with rfl | below
    · exact .here List.mem_cons_self
    · exact .of_children (within_of_mem_preorder child m below)
  | .text content isExpression, m, member => .here member
  | .slot name, m, member => .here member
  | .foreign typeName, m, member => .here member
theorem within_of_mem_preorderList : ∀ (ns : List Node) (m : Node), m ∈ preorderList ns → Within m ns
  | [], m, member => by cases member
  | n :: ns, m, member => by
    rw [preorderList, List.mem_append] at member
    rcases member with first | later
    · exact (within_of_mem_preorder n m first).mono (by simp)
    · exact (within_of_mem_preorderList ns m later).mono (List.subset_cons_self n ns)
end

theorem preorder_subset {n : Node} {ns : List Node} (member : n ∈ ns) : n.preorder ⊆ preorderList ns := by
  induction ns with
  | nil => cases member
  | cons first ns ih =>
    rw [preorderList]
    rcases List.mem_cons.mp member with rfl | later
    · exact List.subset_append_left _ _
    · exact List.subset_append_of_subset_right _ (ih later)

/-- A traversal reaches exactly what stands in a forest. -/
theorem mem_preorderList_iff {m : Node} {ns : List Node} : m ∈ preorderList ns ↔ Within m ns := by
  refine ⟨within_of_mem_preorderList ns m, fun within => ?_⟩
  induction within with
  | here member => exact preorder_subset member (by rw [preorder_eq]; exact List.mem_cons_self)
  | deeper member _ ih => exact preorder_subset member (by rw [preorder_eq]; exact .tail _ ih)

/-! ## The first failure -/

/-- The failure that a node is met with. -/
def failure? : Node → Option Report
  | foreign typeName => some (unhandled typeName)
  | _ => none

/-- The failure of the first value of a forest that is no node. -/
def firstFailure? (ns : List Node) : Option Report := (preorderList ns).findSome? failure?

theorem firstFailure?_cons (n : Node) (ns : List Node) :
    firstFailure? (n :: ns) = (firstFailure? [n]).or (firstFailure? ns) := by
  rw [firstFailure?, firstFailure?, firstFailure?, preorderList, List.findSome?_append, preorderList, preorderList,
    List.append_nil]

theorem firstFailure?_singleton (n : Node) : firstFailure? [n] = n.failure?.or (firstFailure? n.children) := by
  rw [firstFailure?, preorderList, preorderList, List.append_nil, preorder_eq, List.findSome?_cons]
  cases n.failure? <;> rfl

theorem isSome_failure? (n : Node) : n.failure?.isSome = n.isForeign := by
  cases n <;> rfl

theorem isSome_firstFailure?_iff {ns : List Node} :
    (firstFailure? ns).isSome ↔ ∃ n, Within n ns ∧ n.isForeign := by
  rw [firstFailure?, List.isSome_findSome?, List.any_eq_true]
  simp only [isSome_failure?, mem_preorderList_iff]

theorem kind_of_firstFailure? {ns : List Node} {r : Report} (failed : firstFailure? ns = some r) :
    r.kind = .unhandledNode := by
  obtain ⟨n, -, own⟩ := List.exists_of_findSome?_eq_some failed
  cases n with
  | foreign typeName =>
    cases own
    rfl
  | _ => cases own

end Node

theorem Traversal.andThen_failure (t u : Traversal) : (t.andThen u).failure = t.failure.or u.failure := by
  rw [Traversal.andThen]
  cases t.failure <;> rfl

-- a traversal that is exhausted ends with the first failure
mutual
theorem walkNode_failure : ∀ n : Node, (walkNode n).failure = Node.firstFailure? [n]
  | .element h children => by
    rw [walkNode, Traversal.andThen_failure, walk_failure children, Node.firstFailure?_singleton]
    rfl
  | .fragment children => by
    rw [walkNode, Traversal.andThen_failure, walk_failure children, Node.firstFailure?_singleton]
    rfl
  | .guarded guard child => by
    rw [walkNode, Traversal.andThen_failure, walkNode_failure child,
      Node.firstFailure?_singleton (.guarded guard child)]
    rfl
  | .text _ _ => rfl
  | .slot _ => rfl
  | .foreign _ => rfl
theorem walk_failure : ∀ ns : List Node, (walk ns).failure = Node.firstFailure? ns
  | [] => rfl
  | n :: ns => by
    rw [walk, Traversal.andThen_failure, walkNode_failure n, walk_failure ns, ← Node.firstFailure?_cons]
end

end Recast.Markup
