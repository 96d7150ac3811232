import Recast.Proofs.Convert.All
import Recast.Proofs.Markup.Foreign

/-!
# Rejected values

Both generators go through a forest in their own way: one never looks below a void element, the other hands guards
down as directives. They fail all the same with the first value that is no node, as a traversal does, since what is
below a void element that was made is nothing.
-/

set_option autoImplicit false

namespace Recast.Generate

open Recast.Markup

/-- A run fails with a given report, or succeeds if there is none. -/
inductive FailsWith {α : Type} : Option Report → Except Report α → Prop
  | succeeds (a : α) : FailsWith none (.ok a)
  | fails (r : Report) : FailsWith (some r) (.error r)

namespace FailsWith

variable {α β : Type} {first second : Option Report} {x : Except Report α}

theorem bind {next : α → Except Report β} (h : FailsWith first x) (later : ∀ a, FailsWith second (next a)) :
    FailsWith (first.or second) (x >>= next) := by
  cases h with
  | succeeds a => exact later a
  | fails r => exact .fails r

theorem map (h : FailsWith first x) (f : α → β) : FailsWith first (f <$> x) := by
  cases h with
  | succeeds a => exact .succeeds (f a)
  | fails r => exact .fails r

theorem andThen (h : FailsWith first x) (f : α → β) : FailsWith first (x >>= fun a => .ok (f a)) := by
  cases h with
  | succeeds a => exact .succeeds (f a)
  | fails r => exact .fails r

theorem error_iff (h : FailsWith first x) (r : Report) : x = .error r ↔ first = some r := by
  cases h with
  | succeeds a => exact ⟨nofun, nofun⟩
  | fails own => exact ⟨fun same => congrArg some (Except.error.inj same),
      fun same => congrArg Except.error (Option.some.inj same)⟩

end FailsWith

/-! ## Svelte -/

section Svelte

open Recast.Generate.Svelte

variable (s : Svelte.Setting)

/-- Rendering a node fails as a traversal of it does. -/
def SvelteFails (n : Node) : Prop := ∀ rootAhead depth, FailsWith (Node.firstFailure? [n]) (nodeLines s rootAhead depth n)

theorem failsWith_pieces {ns : List Node} (each : ∀ n ∈ ns, SvelteFails s n) (rootAhead : Bool) (depth : Nat) :
    FailsWith (Node.firstFailure? ns) (pieces s rootAhead depth ns) := by
  induction ns generalizing rootAhead with
  | nil =>
    rw [pieces]
    exact .succeeds []
  | cons n ns ih =>
    have own := each n List.mem_cons_self rootAhead depth
    have later := fun rootAhead => ih (fun m member => each m (.tail _ member)) rootAhead
    rw [Node.firstFailure?_cons]
    cases n with
    | text content isExpression =>
      rw [pieces]
      exact (later _).andThen _
    | _ =>
      rw [pieces]
      · exact (own.map Piece.block).bind fun piece => (later _).andThen _
      · exact nofun

theorem failsWith_nodeLines {n : Node} (built : n.Built) : SvelteFails s n := by
  induction built with
  | @element h children n made _ ih =>
    obtain ⟨rfl, childless⟩ := Node.eq_of_make made
    intro rootAhead depth
    rw [Node.firstFailure?_singleton, nodeLines]
    by_cases isVoid : h.isVoid = true
    · rw [if_pos isVoid, childless isVoid]
      exact .succeeds _
    · rw [if_neg isVoid]
      exact (failsWith_pieces s ih false (depth + 1)).andThen _
  | text content isExpression =>
    intro rootAhead depth
    rw [nodeLines]
    exact .succeeds _
  | fragment _ ih =>
    intro rootAhead depth
    rw [Node.firstFailure?_singleton, nodeLines]
    exact (failsWith_pieces s ih rootAhead depth).andThen _
  | guarded guard _ ih =>
    intro rootAhead depth
    rw [Node.firstFailure?_singleton, nodeLines]
    exact (ih rootAhead (depth + 1)).andThen _
  | slot name =>
    intro rootAhead depth
    rw [nodeLines]
    exact .succeeds _
  | foreign typeName =>
    intro rootAhead depth
    rw [nodeLines]
    exact .fails _

theorem failsWith_forestLines {ns : List Node} (built : ∀ n ∈ ns, n.Built) (rootAhead : Bool) :
    FailsWith (Node.firstFailure? ns) (forestLines s rootAhead ns) := by
  induction ns generalizing rootAhead with
  | nil =>
    rw [forestLines]
    exact .succeeds []
  | cons n ns ih =>
    rw [forestLines, Node.firstFailure?_cons]
    have first := failsWith_nodeLines s (built n List.mem_cons_self) rootAhead 0
    exact first.bind fun lines => (ih (fun m member => built m (.tail _ member)) _).andThen _

end Svelte

/-! ## Vue -/

section Vue

open Recast.Generate.Vue

variable (s : Vue.Setting)

/-- Rendering a node fails as a traversal of it does, whatever directive it stands under. -/
def VueFails (n : Node) : Prop :=
  ∀ rootAhead depth directive, FailsWith (Node.firstFailure? [n]) (nodeLines s rootAhead depth directive n)

theorem failsWith_piecesUnder {ns : List Node} (each : ∀ n ∈ ns, VueFails s n) (rootAhead : Bool) (depth : Nat) :
    FailsWith (Node.firstFailure? ns) (pieces s rootAhead depth ns) := by
  induction ns generalizing rootAhead with
  | nil =>
    rw [pieces]
    exact .succeeds []
  | cons n ns ih =>
    have own := each n List.mem_cons_self rootAhead depth none
    have later := fun rootAhead => ih (fun m member => each m (.tail _ member)) rootAhead
    rw [Node.firstFailure?_cons]
    cases n with
    | text content isExpression =>
      rw [pieces]
      exact (later _).andThen _
    | _ =>
      rw [pieces]
      · exact (own.map Piece.block).bind fun piece => (later _).andThen _
      · exact nofun

theorem failsWith_nodeLinesUnder {n : Node} (built : n.Built) : VueFails s n := by
  induction built with
  | @element h children n made _ ih =>
    obtain ⟨rfl, -⟩ := Node.eq_of_make made
    intro rootAhead depth directive
    rw [Node.firstFailure?_singleton, nodeLines]
    exact (failsWith_piecesUnder s ih false (depth + 1)).andThen _
  | text content isExpression =>
    intro rootAhead depth directive
    cases directive <;> rw [nodeLines] <;> exact .succeeds _
  | fragment _ ih =>
    intro rootAhead depth directive
    rw [Node.firstFailure?_singleton]
    cases directive with
    | none =>
      rw [nodeLines]
      exact (failsWith_piecesUnder s ih rootAhead depth).andThen _
    | some d =>
      rw [nodeLines]
      exact (failsWith_piecesUnder s ih rootAhead (depth + 1)).andThen _
  | guarded guard _ ih =>
    intro rootAhead depth directive
    rw [Node.firstFailure?_singleton]
    cases directive with
    | none =>
      rw [nodeLines]
      exact ih rootAhead depth _
    | some d =>
      rw [nodeLines]
      exact (ih rootAhead (depth + 1) _).andThen _
  | slot name =>
    intro rootAhead depth directive
    cases directive <;> rw [nodeLines] <;> exact .succeeds _
  | foreign typeName =>
    intro rootAhead depth directive
    rw [nodeLines]
    exact .fails _

theorem failsWith_forestLinesUnder {ns : List Node} (built : ∀ n ∈ ns, n.Built) (rootAhead : Bool) :
    FailsWith (Node.firstFailure? ns) (forestLines s rootAhead ns) := by
  induction ns generalizing rootAhead with
  | nil =>
    rw [forestLines]
    exact .succeeds []
  | cons n ns ih =>
    rw [forestLines, Node.firstFailure?_cons]
    have first := failsWith_nodeLinesUnder s (built n List.mem_cons_self) rootAhead 0 none
    exact first.bind fun lines => (ih (fun m member => built m (.tail _ member)) _).andThen _

end Vue

/-! ## Generated components -/

/-- A component without markup gets an element that was made. -/
theorem built_markupOf {c : Component} (built : ∀ n ∈ c.root, n.Built) (m : Metadata) :
    ∀ n ∈ markupOf c m, n.Built := by
  unfold markupOf
  split
  · intro n member
    rw [List.mem_singleton] at member
    rw [member, fallbackRoot]
    exact .element ((Node.make_eq_ok_iff _ []).mpr fun _ => rfl) (by simp)
  · exact built

theorem firstFailure?_markupOf (c : Component) (m : Metadata) :
    Node.firstFailure? (markupOf c m) = Node.firstFailure? c.root := by
  unfold markupOf
  split
  · rename_i none
    rw [List.isEmpty_iff.mp none, fallbackRoot]
    rfl
  · rfl

theorem failsWith_generate_svelte {c : Component} (built : ∀ n ∈ c.root, n.Built) (o : Options) :
    FailsWith (Node.firstFailure? c.root) (Svelte.generate c o) := by
  have markup : FailsWith (Node.firstFailure? c.root)
      (Svelte.markup ⟨c, metadataOf c, o.svelte.runes⟩ (markupOf c (metadataOf c))) := by
    rw [← firstFailure?_markupOf c (metadataOf c), Svelte.markup]
    exact (failsWith_forestLines _ (built_markupOf built _) true).andThen _
  rw [Svelte.generate]
  exact markup.andThen _

theorem failsWith_generate_vue {c : Component} (built : ∀ n ∈ c.root, n.Built) (o : Options) :
    FailsWith (Node.firstFailure? c.root) (Vue.generate c o) := by
  have template : FailsWith (Node.firstFailure? c.root)
      (Vue.template ⟨c, metadataOf c⟩ (markupOf c (metadataOf c))) := by
    rw [← firstFailure?_markupOf c (metadataOf c), Vue.template]
    exact (failsWith_forestLinesUnder _ (built_markupOf built _) true).andThen _
  rw [Vue.generate]
  exact template.andThen _

/-- A value that is no node is rejected by both generators and by an exhausted traversal, with one report, wherever
it stands, and nothing else is. -/
theorem generate_error_iff_foreign {c : Component} (built : ∀ n ∈ c.root, n.Built) (o : Options) :
    (∀ r, Svelte.generate c o = .error r ↔ (walk c.root).failure = some r) ∧
      (∀ r, Vue.generate c o = .error r ↔ (walk c.root).failure = some r) ∧
      ((∃ r, (walk c.root).failure = some r) ↔ ∃ n, Node.Within n c.root ∧ n.isForeign) ∧
      ∀ r, (walk c.root).failure = some r → r.kind = .unhandledNode := by
  rw [walk_failure]
  refine ⟨(failsWith_generate_svelte built o).error_iff, (failsWith_generate_vue built o).error_iff, ?_,
    fun r => Node.kind_of_firstFailure?⟩
  rw [← Node.isSome_firstFailure?_iff, Option.isSome_iff_exists]

/-- A component with a value of another kind below a fragment and a guard, behind a void element. -/
def panel : Component := {
  name := "Panel"
  root := [.fragment [.element { tag := "br" } [], .guarded "open" (.foreign "object")]] }

theorem generate_error_panel :
    (∀ n ∈ panel.root, n.Built) ∧ (walk panel.root).failure = some (Node.unhandled "object") ∧
      Svelte.generate panel {} = .error (Node.unhandled "object") ∧
      Vue.generate panel {} = .error (Node.unhandled "object") := by
  have built : ∀ n ∈ panel.root, n.Built := by
    intro n member
    obtain rfl := List.mem_singleton.mp member
    refine .fragment fun child inside => ?_
    rcases List.mem_cons.mp inside with rfl | later
    · exact .element ((Node.make_eq_ok_iff _ []).mpr fun _ => rfl) (by simp)
    · obtain rfl := List.mem_singleton.mp later
      exact .guarded _ (.foreign _)
  have alike := generate_error_iff_foreign built {}
  exact ⟨built, rfl, (alike.1 _).mpr rfl, (alike.2.1 _).mpr rfl⟩

end Recast.Generate
