import Recast.Generate.Svelte.Markup
import Recast.Proofs.Normalize.Head

/-!
# Svelte markup of wrapped primitives

Markup rendered without normalization is the markup rendered with it, but for the tags of primitives.
-/

set_option autoImplicit false

namespace Recast.Normalize

open Recast.Text Recast.Repair Recast.Generate Recast.Markup

namespace Svelte

open Recast.Generate.Svelte

/-- Svelte writes guards as blocks of their own. -/
def spelling (s : Setting) : Spelling := ⟨.svelte, attributeText s, fun _ => none⟩

theorem braced_ending (code : String) : (braced code).toList.getLast?.any isValueEnd = true :=
  ending_append ("\x7b" ++ code) rfl

theorem attributeText_ending (s : Setting) (a : Attribute) :
    (attributeText s a).toList.getLast?.any isValueEnd = true := by
  cases a with
  | classExpression code => exact ending_append _ (braced_ending _)
  | classText text => exact ending_append _ rfl
  | static name value => exact ending_append _ rfl
  | expression name code => exact ending_append _ (braced_ending _)
  | gained g =>
    obtain ⟨name, value⟩ := g
    cases value with
    | static text => exact ending_append _ rfl
    | _ => exact ending_append _ (braced_ending _)
  | ref code => exact ending_append _ (braced_ending _)
  | event name code => exact ending_append _ (braced_ending _)
  | spread => exact braced_ending _

section Rendering

variable (c : Component) (m : Metadata) (runes : Bool) (root : List Node)

theorem openings {h : Head} {p : Primitive} (primitive : IsPrimitive h p) (isRoot : Bool)
    (readable : ∀ a ∈ attributesOf c m h isRoot, Readable (attributeText ⟨c, m, runes⟩ a).toList) :
    Openings .svelte p (opening ⟨c, m, runes⟩ h isRoot)
      (opening ⟨{ c with root }, m, runes⟩ (nativeHead h) isRoot) := by
  have attributes : Attributes (spaced ((attributesOf c m h isRoot).map (attributeText ⟨c, m, runes⟩))) := by
    refine attributes_spaced ?_ ?_
    · intro t member
      obtain ⟨a, inPlan, rfl⟩ := List.mem_map.mp member
      exact readable a inPlan
    · intro t member
      obtain ⟨a, -, rfl⟩ := List.mem_map.mp member
      exact attributeText_ending _ a
  refine ⟨_, attributes, ?_, ?_⟩
  · rw [opening, tagName, primitive.wrapped, if_pos rfl, if_pos rfl, toList_openingTag, Token.text,
      primitive.tag]
    simp [spaced, braced, dynamicTag_svelte, nameText_svelte]
  · have same : opening ⟨{ c with root }, m, runes⟩ (nativeHead h) isRoot =
        openingTag p.tag ((attributesOf c m h isRoot).map (attributeText ⟨c, m, runes⟩)) := by
      have kept : attributesOf c m (nativeHead h) isRoot = attributesOf c m h isRoot :=
        primitive.attributesFor_eq .svelte c m isRoot
      rw [← kept, ← primitive.native_tag]
      rw [opening, tagName, primitive.native_not_wrapped, if_neg Bool.false_ne_true, if_neg Bool.false_ne_true,
        List.nil_append]
      rfl
    rw [same, toList_openingTag]
    rfl

theorem primitive_alike {h : Head} {children : List Node} (wrapped : h.isWrappedPrimitive = true)
    (repairable : Repairable (spelling ⟨c, m, runes⟩) c m h children) (rootAhead : Bool) (depth : Nat)
    (inside : Alike (List.Forall₂ (Pieces .svelte)) (pieces ⟨c, m, runes⟩ false (depth + 1) children)
      (pieces ⟨{ c with root }, m, runes⟩ false (depth + 1) (children.map normalize))) :
    Alike (Blocks .svelte) (nodeLines ⟨c, m, runes⟩ rootAhead depth (.element h children))
      (nodeLines ⟨{ c with root }, m, runes⟩ rootAhead depth (normalize (.element h children))) := by
  obtain ⟨p, primitive⟩ := exists_isPrimitive wrapped repairable.known
  have tags := openings c m runes root primitive rootAhead (repairable.readable rootAhead)
  have dynamic : (tagName h).toList = dynamicTag .svelte := by
    rw [tagName, wrapped, if_pos rfl, dynamicTag_svelte]
    rfl
  have native : tagName (nativeHead h) = p.tag := by
    rw [tagName, primitive.native_not_wrapped, if_neg Bool.false_ne_true, primitive.native_tag]
  cases isVoid : p.isVoid with
  | true =>
    obtain ⟨rfl, spread⟩ := repairable.childless (by rw [primitive.becomesVoid, isVoid])
    have unneeded : needsPlaceholder h [] = false := by rw [needsPlaceholder, spread, Bool.and_false]
    rw [normalize_childless, nodeLines, nodeLines, isVoid_of_wrapped wrapped,
      primitive.native_isVoid, isVoid, native, if_pos rfl, if_neg Bool.false_ne_true, pieces]
    refine .ok ?_
    rw [layout_nil, unneeded]
    exact elementLines_void tags dynamic isVoid depth true true
  | false =>
    rw [primitive.normalize_eq isVoid, nodeLines, nodeLines, isVoid_of_wrapped wrapped,
      primitive.native_isVoid, isVoid, native, if_neg Bool.false_ne_true, if_neg Bool.false_ne_true]
    refine inside.bind fun ps qs related => ?_
    rw [primitive.native_needsPlaceholder isVoid, isInlineContent_map]
    exact .ok (elementLines_primitive tags dynamic isVoid depth _
      (content_blocks (depth + 1) _ _ related))

mutual
theorem nodeLines_alike : ∀ (n : Node) (rootAhead : Bool) (depth : Nat),
    ForestRepairable (spelling ⟨c, m, runes⟩) c m [n] →
    Alike (Blocks .svelte) (nodeLines ⟨c, m, runes⟩ rootAhead depth n)
      (nodeLines ⟨{ c with root }, m, runes⟩ rootAhead depth (normalize n))
  | .element h children, rootAhead, depth, fits => by
    obtain ⟨own, below⟩ := fits.of_element
    have inside := pieces_alike children false (depth + 1) below
    cases wrapped : h.isWrappedPrimitive with
    | false =>
      rw [normalize_plain wrapped, nodeLines, nodeLines]
      split
      · exact .ok (.same _)
      · refine inside.bind fun ps qs related => ?_
        rw [needsPlaceholder_map, isInlineContent_map]
        exact .ok (elementLines_same depth _ _ false _ (content_blocks (depth + 1) _ _ related))
    | true =>
      exact primitive_alike c m runes root wrapped (own wrapped) rootAhead depth inside
  | .text content isExpression, rootAhead, depth, _ => by
    rw [normalize, nodeLines, nodeLines]
    exact .ok (.same _)
  | .fragment children, rootAhead, depth, fits => by
    rw [normalize, normalizeList_eq_map, nodeLines, nodeLines]
    refine (pieces_alike children rootAhead depth fits.of_fragment).bind fun ps qs related => ?_
    exact .ok (layoutFrom_blocks depth related [])
  | .guarded guard child, rootAhead, depth, fits => by
    rw [normalize, nodeLines, nodeLines]
    refine (nodeLines_alike child rootAhead (depth + 1) fits.of_guarded.2).bind fun ls rs related => ?_
    exact .ok (((Blocks.same _).append related).append (.same _))
  | .slot _, rootAhead, depth, _ => by
    rw [normalize, nodeLines, nodeLines]
    exact .ok (.same _)
  | .foreign typeName, rootAhead, depth, _ => by
    rw [normalize, nodeLines, nodeLines]
    exact .error _
theorem pieces_alike : ∀ (nodes : List Node) (rootAhead : Bool) (depth : Nat),
    ForestRepairable (spelling ⟨c, m, runes⟩) c m nodes →
    Alike (List.Forall₂ (Pieces .svelte)) (pieces ⟨c, m, runes⟩ rootAhead depth nodes)
      (pieces ⟨{ c with root }, m, runes⟩ rootAhead depth (nodes.map normalize))
  | [], rootAhead, depth, _ => by
    rw [List.map_nil, pieces, pieces]
    exact .ok .nil
  | n :: ns, rootAhead, depth, fits => by
    obtain ⟨first, more⟩ := fits.of_cons
    have rest := pieces_alike ns (rootAhead && !hasElement n) depth more
    by_cases isText : ∃ content isExpression, n = .text content isExpression
    · obtain ⟨content, isExpression, rfl⟩ := isText
      rw [List.map_cons, normalize, pieces, pieces]
      refine Alike.bind (R := Pieces .svelte) (.ok (.inline _)) fun p q here => ?_
      exact rest.bind fun ps qs related => .ok (.cons here related)
    · have block := (nodeLines_alike n rootAhead depth first).map fun _ _ => Pieces.block
      rw [List.map_cons, pieces, pieces]
      · rw [hasElement_normalize]
        refine block.bind fun p q here => ?_
        exact rest.bind fun ps qs related => .ok (.cons here related)
      · intro content isExpression same
        cases n <;> simp [normalize] at same
        exact isText ⟨_, _, rfl⟩
      · intro content isExpression same
        exact isText ⟨content, isExpression, same⟩
end

theorem forestLines_alike (nodes : List Node) (rootAhead : Bool)
    (fits : ForestRepairable (spelling ⟨c, m, runes⟩) c m nodes) :
    Alike (Blocks .svelte) (forestLines ⟨c, m, runes⟩ rootAhead nodes)
      (forestLines ⟨{ c with root }, m, runes⟩ rootAhead (nodes.map normalize)) := by
  induction nodes generalizing rootAhead with
  | nil => exact .ok (.same [])
  | cons n ns ih =>
    obtain ⟨first, more⟩ := fits.of_cons
    rw [List.map_cons, forestLines, forestLines, hasElement_normalize]
    refine (nodeLines_alike c m runes root n rootAhead 0 first).bind fun ls rs here => ?_
    exact (ih _ more).bind fun ls' rs' related => .ok (here.append related)

theorem markup_alike {nodes : List Node} (fits : ForestRepairable (spelling ⟨c, m, runes⟩) c m nodes) :
    Alike (fun l r => Line .svelte [] l r []) (markup ⟨c, m, runes⟩ nodes)
      (markup ⟨{ c with root }, m, runes⟩ (nodes.map normalize)) := by
  rw [markup, markup]
  exact (forestLines_alike c m runes root nodes true fits).bind fun ls rs related =>
    .ok ((related []).join _)

end Rendering

end Svelte

end Recast.Normalize
