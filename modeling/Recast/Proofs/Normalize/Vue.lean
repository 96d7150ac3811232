import Recast.Generate.Vue.Markup
import Recast.Proofs.Normalize.Head

/-!
# Vue templates of wrapped primitives

A template rendered without normalization is the template rendered with it, but for the tags of
primitives. Guards of primitives are directives, so they are attributes among the others.
-/

set_option autoImplicit false

namespace Recast.Normalize

open Recast.Text Recast.Repair Recast.Generate Recast.Markup

namespace Vue

open Recast.Generate.Vue

def spelling (s : Setting) : Spelling :=
  ⟨.vue, attributeText s, fun guard => some (guardDirective s guard)⟩

theorem quotedExpression_ending (s : Setting) (code : String) :
    (quotedExpression s code).toList.getLast?.any isValueEnd = true :=
  ending_append ("\"" ++ ClassExpr.attributeSafeQuotes (expression s code)) rfl

theorem attributeText_ending (s : Setting) (a : Attribute) :
    (attributeText s a).toList.getLast?.any isValueEnd = true := by
  cases a with
  | classExpression code => exact ending_append _ rfl
  | classText text => exact ending_append _ rfl
  | static name value => exact ending_append _ rfl
  | expression name code => exact ending_append _ (quotedExpression_ending s _)
  | gained g =>
    obtain ⟨name, value⟩ := g
    cases value <;> exact ending_append _ rfl
  | ref code => exact ending_append _ rfl
  | event name code => exact ending_append _ (quotedExpression_ending s _)
  | spread =>
    have ending : "v-bind=\"$attrs\"".toList.getLast?.any isValueEnd = true := by decide +kernel
    exact ending

theorem guardDirective_ending (s : Setting) (guard : String) :
    (guardDirective s guard).toList.getLast?.any isValueEnd = true :=
  ending_append _ (quotedExpression_ending s guard)

section Rendering

variable (c : Component) (m : Metadata) (root : List Node)

/-- A directive that comes from a guard of the node. -/
def Directs (directive : Option String) (n : Node) : Prop :=
  ∀ text ∈ directive, ∃ guard, text = guardDirective ⟨c, m⟩ guard ∧
    NodeRepairable (spelling ⟨c, m⟩) c m (.guarded guard n)

theorem openings {h : Head} {p : Primitive} (primitive : IsPrimitive h p) (isRoot : Bool)
    {directive : Option String} {children : List Node} (directs : Directs c m directive (.element h children))
    (readable : ∀ a ∈ attributesOf c m h isRoot, Readable (attributeText ⟨c, m⟩ a).toList) :
    Openings .vue p (opening ⟨c, m⟩ h isRoot directive)
      (opening ⟨{ c with root }, m⟩ (nativeHead h) isRoot directive) := by
  have attributes : Attributes (spaced (directive.toList ++
      (attributesOf c m h isRoot).map (attributeText ⟨c, m⟩))) := by
    refine attributes_spaced ?_ ?_
    · intro t member
      rcases List.mem_append.mp member with inDirective | inPlan
      · obtain ⟨guard, rfl, fits⟩ := directs t (Option.mem_toList.mp inDirective)
        exact fits primitive.wrapped _ rfl
      · obtain ⟨a, planned, rfl⟩ := List.mem_map.mp inPlan
        exact readable a planned
    · intro t member
      rcases List.mem_append.mp member with inDirective | inPlan
      · obtain ⟨guard, rfl, -⟩ := directs t (Option.mem_toList.mp inDirective)
        exact guardDirective_ending _ guard
      · obtain ⟨a, -, rfl⟩ := List.mem_map.mp inPlan
        exact attributeText_ending _ a
  refine ⟨_, attributes, ?_, ?_⟩
  · rw [opening, tagName, primitive.wrapped, if_pos rfl, if_pos rfl, toList_openingTag, Token.text,
      primitive.tag]
    simp [spaced, dynamicTag_vue, nameText_vue]
  · have same : opening ⟨{ c with root }, m⟩ (nativeHead h) isRoot directive =
        openingTag p.tag (directive.toList ++
          (attributesOf c m h isRoot).map (attributeText ⟨c, m⟩)) := by
      have kept : attributesOf c m (nativeHead h) isRoot = attributesOf c m h isRoot :=
        primitive.attributesFor_eq .vue c m isRoot
      rw [← kept, ← primitive.native_tag]
      rw [opening, tagName, primitive.native_not_wrapped]
      rfl
    rw [same, toList_openingTag]
    rfl

theorem wrapped_blocks (depth : Nat) (directive : String) {ls rs : List String} (h : Blocks .vue ls rs) :
    Blocks .vue (wrapped depth directive ls) (wrapped depth directive rs) :=
  ((Blocks.same _).append h).append (.same _)

theorem closesItself_map (h : Head) (children : List Node) :
    closesItself h (children.map normalize) = closesItself h children := by
  rw [closesItself, closesItself, List.isEmpty_map]

theorem primitive_alike {h : Head} {children : List Node} (isWrapped : h.isWrappedPrimitive = true)
    (repairable : Repairable (spelling ⟨c, m⟩) c m h children) (rootAhead : Bool) (depth : Nat)
    {directive : Option String} (directs : Directs c m directive (.element h children))
    (inside : Alike (List.Forall₂ (Pieces .vue)) (pieces ⟨c, m⟩ false (depth + 1) children)
      (pieces ⟨{ c with root }, m⟩ false (depth + 1) (children.map normalize))) :
    Alike (Blocks .vue) (nodeLines ⟨c, m⟩ rootAhead depth directive (.element h children))
      (nodeLines ⟨{ c with root }, m⟩ rootAhead depth directive (normalize (.element h children))) := by
  obtain ⟨p, primitive⟩ := exists_isPrimitive isWrapped repairable.known
  have tags := openings c m root primitive rootAhead directs (repairable.readable rootAhead)
  have dynamic : (tagName h).toList = dynamicTag .vue := by
    rw [tagName, isWrapped, if_pos rfl, dynamicTag_vue]
    rfl
  have native : tagName (nativeHead h) = p.tag := by
    rw [tagName, primitive.native_not_wrapped, if_neg Bool.false_ne_true, primitive.native_tag]
  have open' : closesItself h children = false := by
    rw [closesItself, isVoid_of_wrapped isWrapped, primitive.slotless]
    rfl
  cases isVoid : p.isVoid with
  | true =>
    obtain ⟨rfl, spread⟩ := repairable.childless (by rw [primitive.becomesVoid, isVoid])
    have unneeded : needsPlaceholder h [] = false := by rw [needsPlaceholder, spread, Bool.and_false]
    have unneeded' : needsPlaceholder (nativeHead h) [] = false := by
      rw [needsPlaceholder, primitive.native_isVoid, isVoid]
      rfl
    have closed : closesItself (nativeHead h) [] = true := by
      rw [closesItself, primitive.native_isVoid, isVoid, Bool.true_or]
    rw [normalize_childless, nodeLines, nodeLines, native, open', closed, pieces, pieces]
    refine .ok ?_
    rw [layout_nil, unneeded, unneeded']
    exact elementLines_void tags dynamic isVoid depth true true
  | false =>
    have open'' : closesItself (nativeHead h) (children.map normalize) = false := by
      rw [closesItself, primitive.native_isVoid, isVoid, primitive.native_slotless]
      rfl
    rw [primitive.normalize_eq isVoid, nodeLines, nodeLines, native, open', open'']
    refine inside.bind fun ps qs related => ?_
    rw [primitive.native_needsPlaceholder isVoid, isInlineContent_map]
    exact .ok (elementLines_primitive tags dynamic isVoid depth _
      (content_blocks (depth + 1) _ _ related))

mutual
theorem nodeLines_alike : ∀ (n : Node) (rootAhead : Bool) (depth : Nat) (directive : Option String),
    Directs c m directive n → ForestRepairable (spelling ⟨c, m⟩) c m [n] →
    Alike (Blocks .vue) (nodeLines ⟨c, m⟩ rootAhead depth directive n)
      (nodeLines ⟨{ c with root }, m⟩ rootAhead depth directive (normalize n))
  | .element h children, rootAhead, depth, directive, directs, fits => by
    obtain ⟨own, below⟩ := fits.of_element
    have inside := pieces_alike children false (depth + 1) below
    cases isWrapped : h.isWrappedPrimitive with
    | false =>
      rw [normalize_plain isWrapped, nodeLines, nodeLines]
      refine inside.bind fun ps qs related => ?_
      rw [needsPlaceholder_map, isInlineContent_map, closesItself_map]
      exact .ok (elementLines_same depth _ _ _ _ (content_blocks (depth + 1) _ _ related))
    | true =>
      exact primitive_alike c m root isWrapped (own isWrapped) rootAhead depth directs inside
  | .guarded guard child, rootAhead, depth, directive, _, fits => by
    obtain ⟨own, below⟩ := fits.of_guarded
    have directs : Directs c m (some (guardDirective ⟨c, m⟩ guard)) child := by
      intro text same
      exact ⟨guard, (Option.mem_some_iff.mp same).symm, own⟩
    cases directive with
    | none =>
      rw [normalize, nodeLines, nodeLines]
      exact nodeLines_alike child rootAhead depth _ directs below
    | some d =>
      rw [normalize, nodeLines, nodeLines]
      refine (nodeLines_alike child rootAhead (depth + 1) _ directs below).bind fun ls rs related => ?_
      exact .ok (wrapped_blocks depth d related)
  | .text content isExpression, rootAhead, depth, directive, _, _ => by
    cases directive with
    | none =>
      rw [normalize, nodeLines, nodeLines]
      exact .ok (.same _)
    | some d =>
      rw [normalize, nodeLines, nodeLines]
      exact .ok (.same _)
  | .fragment children, rootAhead, depth, directive, _, fits => by
    cases directive with
    | none =>
      rw [normalize, normalizeList_eq_map, nodeLines, nodeLines]
      refine (pieces_alike children rootAhead depth fits.of_fragment).bind fun ps qs related => ?_
      exact .ok (layoutFrom_blocks depth related [])
    | some d =>
      rw [normalize, normalizeList_eq_map, nodeLines, nodeLines]
      refine (pieces_alike children rootAhead (depth + 1) fits.of_fragment).bind fun ps qs related => ?_
      exact .ok (wrapped_blocks depth d (layoutFrom_blocks (depth + 1) related []))
  | .slot _, rootAhead, depth, directive, _, _ => by
    cases directive with
    | none =>
      rw [normalize, nodeLines, nodeLines]
      exact .ok (.same _)
    | some d =>
      rw [normalize, nodeLines, nodeLines]
      exact .ok (.same _)
  | .foreign typeName, rootAhead, depth, directive, _, _ => by
    rw [normalize, nodeLines, nodeLines]
    exact .error _
theorem pieces_alike : ∀ (nodes : List Node) (rootAhead : Bool) (depth : Nat),
    ForestRepairable (spelling ⟨c, m⟩) c m nodes →
    Alike (List.Forall₂ (Pieces .vue)) (pieces ⟨c, m⟩ rootAhead depth nodes)
      (pieces ⟨{ c with root }, m⟩ rootAhead depth (nodes.map normalize))
  | [], rootAhead, depth, _ => by
    rw [List.map_nil, pieces, pieces]
    exact .ok .nil
  | n :: ns, rootAhead, depth, fits => by
    obtain ⟨first, more⟩ := fits.of_cons
    have rest := pieces_alike ns (rootAhead && !hasElement n) depth more
    by_cases isText : ∃ content isExpression, n = .text content isExpression
    · obtain ⟨content, isExpression, rfl⟩ := isText
      rw [List.map_cons, normalize, pieces, pieces]
      refine Alike.bind (R := Pieces .vue) (.ok (.inline _)) fun p q here => ?_
      exact rest.bind fun ps qs related => .ok (.cons here related)
    · have block := (nodeLines_alike n rootAhead depth none (by simp [Directs]) first).map
        fun _ _ => Pieces.block
      rw [List.map_cons, pieces, pieces]
      · rw [hasElement_normalize]
        refine block.bind fun p q here => ?_
        exact rest.bind fun ps qs related => .ok (.cons here related)
      · intro content isExpression same
        cases n <;> simp [normalize] at same
        exact isText ⟨_, _, rfl⟩
      · intro content isExpression same
        exact isText ⟨content, isExpression, same⟩
end

theorem forestLines_alike (nodes : List Node) (rootAhead : Bool)
    (fits : ForestRepairable (spelling ⟨c, m⟩) c m nodes) :
    Alike (Blocks .vue) (forestLines ⟨c, m⟩ rootAhead nodes)
      (forestLines ⟨{ c with root }, m⟩ rootAhead (nodes.map normalize)) := by
  induction nodes generalizing rootAhead with
  | nil => exact .ok (.same [])
  | cons n ns ih =>
    obtain ⟨first, more⟩ := fits.of_cons
    rw [List.map_cons, forestLines, forestLines, hasElement_normalize]
    refine (nodeLines_alike c m root n rootAhead 0 none (by simp [Directs]) first).bind
      fun ls rs here => ?_
    exact (ih _ more).bind fun ls' rs' related => .ok (here.append related)

theorem template_alike {nodes : List Node} (fits : ForestRepairable (spelling ⟨c, m⟩) c m nodes) :
    Alike (fun l r => Line .vue [] l r []) (template ⟨c, m⟩ nodes)
      (template ⟨{ c with root }, m⟩ (nodes.map normalize)) := by
  rw [template, template]
  exact (forestLines_alike c m root nodes true fits).bind fun ls rs related =>
    .ok ((related []).join _)

end Rendering

end Vue

end Recast.Normalize
