import Recast.Generate.Svelte.Markup
import Recast.Generate.Vue.Markup
import Recast.Proofs.Layout.Ink

/-!
# Flat markup

Both targets have a plain way to write a forest, node after node and without regard to lines. Rendering
a sound forest succeeds and has the ink of its flat markup, so that line breaks, indentation, joined
runs of text and inlined content neither lose nor repeat nor move anything.
-/

set_option autoImplicit false

namespace Recast.Layout

open Recast.Text Recast.Generate Recast.Markup

namespace Svelte

open Recast.Generate.Svelte
open Recast.ClassExpr (stripPropsAccess)

variable (s : Setting)

mutual
/-- A node without regard to lines. The first element is the root. -/
def flatNode (isRoot : Bool) : Node → String
  | .element h children =>
    flatElement (opening s h isRoot) (tagName h)
      (if needsPlaceholder h children then s.placeholder else flatForest false children) h.isVoid
  | .text content isExpression => textSpelling content isExpression
  | .fragment children => flatForest isRoot children
  | .guarded guard child =>
    "\x7b#if " ++ stripPropsAccess guard ++ "\x7d" ++ flatNode isRoot child ++ "\x7b/if\x7d"
  | .slot _ => s.placeholder
  | .foreign _ => ""
def flatForest (isRoot : Bool) : List Node → String
  | [] => ""
  | n :: ns => flatNode isRoot n ++ flatForest (isRoot && !hasElement n) ns
end

mutual
theorem nodeLines_ink : ∀ (n : Node) (rootAhead : Bool) (depth : Nat), Sound [n] →
    Renders (nodeLines s rootAhead depth n) (flatNode s rootAhead n)
  | .element h children, rootAhead, depth, sound => by
    obtain ⟨-, below⟩ := sound_element.mp sound
    obtain ⟨ps, inside, same⟩ := pieces_ink children false (depth + 1) below
    rw [nodeLines, flatNode]
    by_cases isVoid : h.isVoid = true
    · rw [if_pos isVoid, isVoid]
      exact ⟨_, rfl, elementLines_closed_ink depth _ _ _ true⟩
    · rw [if_neg isVoid, inside, Bool.eq_false_iff.mpr isVoid]
      have childless : needsPlaceholder h children = true → ps = [] := by
        intro needed
        rw [needsPlaceholder_childless needed, pieces] at inside
        exact (Except.ok.inj inside).symm
      exact ⟨_, rfl, elementLines_ink depth _ _ _ _ _ (content_ink childless same)⟩
  | .text content isExpression, rootAhead, depth, _ => by
    rw [nodeLines, flatNode]
    exact ⟨_, rfl, by simp [ink_pad]⟩
  | .fragment children, rootAhead, depth, sound => by
    obtain ⟨ps, inside, same⟩ := pieces_ink children rootAhead depth (sound_fragment.mp sound)
    rw [nodeLines, flatNode, inside]
    exact ⟨_, rfl, by rw [layout_ink, same]⟩
  | .guarded guard child, rootAhead, depth, sound => by
    obtain ⟨lines, inside, same⟩ :=
      nodeLines_ink child rootAhead (depth + 1) (sound_guarded.mp sound)
    rw [nodeLines, flatNode, inside]
    exact ⟨_, rfl, by simp [ink_pad, same]⟩
  | .slot _, rootAhead, depth, _ => by
    rw [nodeLines, flatNode]
    exact ⟨_, rfl, by simp [ink_pad]⟩
  | .foreign typeName, _, _, sound => absurd sound (not_sound_foreign typeName)
theorem pieces_ink : ∀ (nodes : List Node) (rootAhead : Bool) (depth : Nat), Sound nodes →
    RendersPieces (pieces s rootAhead depth nodes) (flatForest s rootAhead nodes)
  | [], rootAhead, depth, _ => by
    rw [pieces, flatForest]
    exact ⟨[], rfl, rfl⟩
  | n :: ns, rootAhead, depth, sound => by
    obtain ⟨first, more⟩ := sound_cons.mp sound
    obtain ⟨ps, rest, same⟩ := pieces_ink ns (rootAhead && !hasElement n) depth more
    rw [flatForest]
    by_cases isText : ∃ content isExpression, n = .text content isExpression
    · obtain ⟨content, isExpression, rfl⟩ := isText
      rw [pieces, rest]
      exact ⟨_, rfl, by simp [pieceInk, flatNode, same]⟩
    · obtain ⟨lines, rendered, sameHere⟩ := nodeLines_ink n rootAhead depth first
      rw [pieces, rendered, rest]
      · exact ⟨_, rfl, by simp [pieceInk, sameHere, same]⟩
      · exact fun content isExpression isText' => isText ⟨content, isExpression, isText'⟩
end

theorem forestLines_ink (nodes : List Node) (rootAhead : Bool) (sound : Sound nodes) :
    Renders (forestLines s rootAhead nodes) (flatForest s rootAhead nodes) := by
  induction nodes generalizing rootAhead with
  | nil => exact ⟨[], rfl, rfl⟩
  | cons n ns ih =>
    obtain ⟨first, more⟩ := sound_cons.mp sound
    obtain ⟨lines, rendered, sameHere⟩ := nodeLines_ink s n rootAhead 0 first
    obtain ⟨rest, renderedRest, same⟩ := ih (rootAhead && !hasElement n) more
    rw [forestLines, flatForest, rendered]
    exact ⟨lines ++ rest, by rw [renderedRest]; rfl, by simp [sameHere, same]⟩

/-- The markup of a sound forest has the ink of its flat markup. -/
theorem markup_ink {nodes : List Node} (sound : Sound nodes) :
    ∃ text, markup s nodes = .ok text ∧ ink text = ink (flatForest s true nodes) := by
  obtain ⟨lines, rendered, same⟩ := forestLines_ink s nodes true sound
  exact ⟨join "\n" lines, by rw [markup, rendered]; rfl, by rw [ink_lines, same]⟩

end Svelte

namespace Vue

open Recast.Generate.Vue

variable (s : Setting)

def flatTagged (isRoot : Bool) (directive : Option String) (h : Head) (children : List Node)
    (inside : String) : String :=
  flatElement (opening s h isRoot directive) (tagName h)
    (if needsPlaceholder h children then placeholder else inside) (closesItself h children)

def flatWrapped (directive inside : String) : String :=
  "<template " ++ directive ++ ">" ++ inside ++ "</template>"

mutual
/-- A node without regard to lines. A guard is written in the tag of an element, and around anything
else. -/
def flatNode (isRoot : Bool) : Node → String
  | .element h children => flatTagged s isRoot none h children (flatForest false children)
  | .text content isExpression => textSpelling s content isExpression
  | .fragment children => flatForest isRoot children
  | .guarded guard (.element h children) =>
    flatTagged s isRoot (some (guardDirective s guard)) h children (flatForest false children)
  | .guarded guard child => flatWrapped (guardDirective s guard) (flatNode isRoot child)
  | .slot _ => placeholder
  | .foreign _ => ""
def flatForest (isRoot : Bool) : List Node → String
  | [] => ""
  | n :: ns => flatNode isRoot n ++ flatForest (isRoot && !hasElement n) ns
end

/-- A node under a directive. -/
def flatUnder (isRoot : Bool) : Option String → Node → String
  | none, n => flatNode s isRoot n
  | some directive, .element h children =>
    flatTagged s isRoot (some directive) h children (flatForest s false children)
  | some directive, n => flatWrapped directive (flatNode s isRoot n)

theorem flatNode_guarded (isRoot : Bool) (guard : String) (child : Node) :
    flatNode s isRoot (.guarded guard child) = flatUnder s isRoot (some (guardDirective s guard)) child := by
  cases child <;> simp [flatNode, flatUnder]

theorem wrapped_ink (depth : Nat) (directive : String) {inside : List String} {text : String}
    (same : lineInk inside = ink text) :
    lineInk (wrapped depth directive inside) = ink (flatWrapped directive text) := by
  simp [wrapped, flatWrapped, ink_pad, same]

theorem element_ink {h : Head} {children : List Node} (isRoot : Bool) (depth : Nat)
    (directive : Option String) (sound : h.isVoid = true → children = []) {inside : String}
    (below : RendersPieces (pieces s false (depth + 1) children) inside) :
    Renders (nodeLines s isRoot depth directive (.element h children))
      (flatTagged s isRoot directive h children inside) := by
  obtain ⟨ps, rendered, same⟩ := below
  rw [nodeLines, flatTagged, rendered]
  have empty : children = [] → ps = [] := by
    intro childless
    rw [childless, pieces] at rendered
    exact (Except.ok.inj rendered).symm
  cases closed : closesItself h children with
  | true =>
    obtain ⟨childless, unneeded⟩ := closesItself_childless closed sound
    rw [empty childless, unneeded]
    refine ⟨_, rfl, ?_⟩
    rw [layout_nil]
    exact elementLines_closed_ink depth _ _ _ _
  | false =>
    have childless : needsPlaceholder h children = true → ps = [] :=
      fun needed => empty (needsPlaceholder_childless needed)
    exact ⟨_, rfl, elementLines_ink depth _ _ _ _ _ (content_ink childless same)⟩

mutual
theorem nodeLines_ink : ∀ (n : Node) (rootAhead : Bool) (depth : Nat) (directive : Option String),
    Sound [n] → Renders (nodeLines s rootAhead depth directive n) (flatUnder s rootAhead directive n)
  | .element h children, rootAhead, depth, directive, sound => by
    obtain ⟨childless, below⟩ := sound_element.mp sound
    have inside := pieces_ink children false (depth + 1) below
    have whole := element_ink s rootAhead depth directive childless inside
    cases directive with
    | none => rwa [flatUnder, flatNode]
    | some d => rwa [flatUnder]
  | .guarded guard child, rootAhead, depth, directive, sound => by
    have below := sound_guarded.mp sound
    cases directive with
    | none =>
      rw [nodeLines, flatUnder, flatNode_guarded]
      exact nodeLines_ink child rootAhead depth _ below
    | some d =>
      obtain ⟨lines, inside, same⟩ :=
        nodeLines_ink child rootAhead (depth + 1) (some (guardDirective s guard)) below
      rw [nodeLines, inside, flatUnder, flatNode_guarded]
      · exact ⟨_, rfl, wrapped_ink depth d same⟩
      · simp
  | .text content isExpression, rootAhead, depth, directive, _ => by
    cases directive with
    | none =>
      rw [nodeLines, flatUnder, flatNode]
      exact ⟨_, rfl, by simp [ink_pad]⟩
    | some d =>
      rw [nodeLines, flatUnder, flatNode]
      · exact ⟨_, rfl, wrapped_ink depth d (by simp [ink_pad])⟩
      · simp
  | .fragment children, rootAhead, depth, directive, sound => by
    have below := sound_fragment.mp sound
    cases directive with
    | none =>
      obtain ⟨ps, inside, same⟩ := pieces_ink children rootAhead depth below
      rw [nodeLines, flatUnder, flatNode, inside]
      exact ⟨_, rfl, by rw [layout_ink, same]⟩
    | some d =>
      obtain ⟨ps, inside, same⟩ := pieces_ink children rootAhead (depth + 1) below
      rw [nodeLines, flatUnder, flatNode, inside]
      · exact ⟨_, rfl, wrapped_ink depth d (by rw [layout_ink, same])⟩
      · simp
  | .slot _, rootAhead, depth, directive, _ => by
    cases directive with
    | none =>
      rw [nodeLines, flatUnder, flatNode]
      exact ⟨_, rfl, by simp [ink_pad]⟩
    | some d =>
      rw [nodeLines, flatUnder, flatNode]
      · exact ⟨_, rfl, wrapped_ink depth d (by simp [ink_pad])⟩
      · simp
  | .foreign typeName, _, _, _, sound => absurd sound (not_sound_foreign typeName)
theorem pieces_ink : ∀ (nodes : List Node) (rootAhead : Bool) (depth : Nat), Sound nodes →
    RendersPieces (pieces s rootAhead depth nodes) (flatForest s rootAhead nodes)
  | [], rootAhead, depth, _ => by
    rw [pieces, flatForest]
    exact ⟨[], rfl, rfl⟩
  | n :: ns, rootAhead, depth, sound => by
    obtain ⟨first, more⟩ := sound_cons.mp sound
    obtain ⟨ps, rest, same⟩ := pieces_ink ns (rootAhead && !hasElement n) depth more
    rw [flatForest]
    by_cases isText : ∃ content isExpression, n = .text content isExpression
    · obtain ⟨content, isExpression, rfl⟩ := isText
      rw [pieces, rest]
      exact ⟨_, rfl, by simp [pieceInk, flatNode, same]⟩
    · obtain ⟨lines, rendered, sameHere⟩ := nodeLines_ink n rootAhead depth none first
      rw [flatUnder] at sameHere
      rw [pieces, rendered, rest]
      · exact ⟨_, rfl, by simp [pieceInk, sameHere, same]⟩
      · exact fun content isExpression isText' => isText ⟨content, isExpression, isText'⟩
end

theorem forestLines_ink (nodes : List Node) (rootAhead : Bool) (sound : Sound nodes) :
    Renders (forestLines s rootAhead nodes) (flatForest s rootAhead nodes) := by
  induction nodes generalizing rootAhead with
  | nil => exact ⟨[], rfl, rfl⟩
  | cons n ns ih =>
    obtain ⟨first, more⟩ := sound_cons.mp sound
    obtain ⟨lines, rendered, sameHere⟩ := nodeLines_ink s n rootAhead 0 none first
    obtain ⟨rest, renderedRest, same⟩ := ih (rootAhead && !hasElement n) more
    rw [flatUnder] at sameHere
    rw [forestLines, flatForest, rendered]
    exact ⟨lines ++ rest, by rw [renderedRest]; rfl, by simp [sameHere, same]⟩

/-- The template of a sound forest has the ink of its flat markup. -/
theorem template_ink {nodes : List Node} (sound : Sound nodes) :
    ∃ text, template s nodes = .ok text ∧ ink text = ink (flatForest s true nodes) := by
  obtain ⟨lines, rendered, same⟩ := forestLines_ink s nodes true sound
  exact ⟨join "\n" lines, by rw [template, rendered]; rfl, by rw [ink_lines, same]⟩

end Vue

/-- Both renderers write every sound forest as its flat markup, up to blanks. -/
theorem rendered_ink_eq_flat (c : Component) (m : Metadata) (runes : Bool) (nodes : List Node)
    (sound : Sound nodes) :
    (∃ text, Generate.Svelte.markup ⟨c, m, runes⟩ nodes = .ok text ∧
      ink text = ink (Svelte.flatForest ⟨c, m, runes⟩ true nodes)) ∧
    ∃ text, Generate.Vue.template ⟨c, m⟩ nodes = .ok text ∧
      ink text = ink (Vue.flatForest ⟨c, m⟩ true nodes) :=
  ⟨Svelte.markup_ink ⟨c, m, runes⟩ sound, Vue.template_ink ⟨c, m⟩ sound⟩

/-- A forest with text that is blank, nested guards, a void element and a place for callers. -/
def notice : List Node := [
  .fragment [
    .text "  " false,
    .guarded "open" (.guarded "props.ready" (.fragment [.text "Ready: " false, .text "state" true])),
    .guarded "open" (.element { tag := "br" } [])],
  .element { tag := "div", bindings := [(spreadKey, ⟨"props", .spread⟩)] } [],
  .element { tag := "textarea" } []]

theorem rendered_ink_eq_flat_notice :
    Sound notice ∧
    (∃ text, Generate.Svelte.markup ⟨{ name := "Notice" }, {}, true⟩ notice = .ok text ∧
      ink text = ink (Svelte.flatForest ⟨{ name := "Notice" }, {}, true⟩ true notice)) ∧
    ∃ text, Generate.Vue.template ⟨{ name := "Notice" }, {}⟩ notice = .ok text ∧
      ink text = ink (Vue.flatForest ⟨{ name := "Notice" }, {}⟩ true notice) := by
  have sound : Sound notice := by decide +kernel
  exact ⟨sound, rendered_ink_eq_flat { name := "Notice" } {} true notice sound⟩

end Recast.Layout
