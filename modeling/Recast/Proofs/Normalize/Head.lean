import Recast.Proofs.Generate.Selection
import Recast.Proofs.Normalize.Layout
import Recast.Proofs.Normalize.Tree

/-!
# Elements of wrapped primitives

What generators decide about an element they decide alike for a primitive and for its native element:
the attributes, and whether it shows the content of callers. The exception are void elements, which a
primitive is not taken for.
-/

set_option autoImplicit false

namespace Recast.Normalize

open Recast.Text Recast.Repair Recast.Generate Recast.Markup

/-! ## Native heads -/

/-- The head of a primitive of the catalog. -/
structure IsPrimitive (h : Head) (p : Primitive) : Prop where
  wrapped : h.isWrappedPrimitive = true
  tag : h.tag = p.name

theorem exists_isPrimitive {h : Head} (wrapped : h.isWrappedPrimitive = true)
    (known : (Catalog.nativeTag? h.tag).isSome = true) : ∃ p, IsPrimitive h p := by
  obtain ⟨tag, found⟩ := Option.isSome_iff_exists.mp known
  exact ⟨⟨h.tag, tag, found⟩, wrapped, rfl⟩

section Head

variable {h : Head} {p : Primitive} (primitive : IsPrimitive h p)

include primitive

theorem IsPrimitive.nativeTag? : Catalog.nativeTag? h.tag = some p.tag := by
  rw [primitive.tag]
  exact p.known

theorem IsPrimitive.nativeHead_eq : nativeHead h = retagged p.tag (some h.tag) h := by
  rw [nativeHead, primitive.wrapped, if_pos rfl, primitive.nativeTag?]
  rfl

theorem IsPrimitive.native_tag : (nativeHead h).tag = p.tag := by
  rw [primitive.nativeHead_eq]
  rfl

theorem IsPrimitive.native_isVoid : (nativeHead h).isVoid = p.isVoid := by
  rw [Head.isVoid, primitive.native_tag, p.isVoidTag_tag]

theorem IsPrimitive.becomesVoid : becomesVoid h = p.isVoid := by
  rw [Normalize.becomesVoid, primitive.wrapped, primitive.native_isVoid, Bool.true_and]

theorem IsPrimitive.native_not_wrapped : (nativeHead h).isWrappedPrimitive = false := by
  rw [Head.isWrappedPrimitive, primitive.native_tag]
  simpa using p.dot_not_mem_tag

theorem IsPrimitive.nativeTag_eq : nativeTag (nativeHead h) = nativeTag h := by
  have known : p.tag ≠ "" := fun empty => p.tag_ne_nil (String.toList_eq_nil_iff.mpr empty)
  rw [nativeTag, primitive.native_not_wrapped, if_neg Bool.false_ne_true, primitive.native_tag, nativeTag,
    primitive.wrapped, if_pos rfl, primitive.nativeTag?]
  simp [Option.filter, known]

theorem IsPrimitive.slotless : slotlessTags.contains h.tag = false := by
  have dot := p.dot_mem_name
  rw [← primitive.tag] at dot
  rw [← Bool.not_eq_true, List.contains_iff_mem]
  intro slotless
  simp only [slotlessTags, List.mem_cons, List.not_mem_nil, or_false] at slotless
  rcases slotless with same | same
  · rw [same] at dot
    exact absurd dot (by decide)
  · rw [same] at dot
    exact absurd dot (by decide)

theorem IsPrimitive.native_slotless : slotlessTags.contains (nativeHead h).tag = false := by
  rw [primitive.native_tag]
  exact p.tag_not_slotless

theorem IsPrimitive.gains_eq (c : Component) (m : Metadata) (isRoot : Bool) :
    gains c m (nativeHead h) isRoot = gains c m h isRoot := by
  have same := primitive.nativeTag_eq
  rw [primitive.nativeHead_eq] at same ⊢
  cases isRoot with
  | false =>
    rw [gains, gains, if_neg Bool.false_ne_true, if_neg Bool.false_ne_true]
    rfl
  | true =>
    simp only [gains, if_true, rootGains, rootCandidates, same]
    rfl

theorem IsPrimitive.attributesFor_eq (target : Target) (c : Component) (m : Metadata) (isRoot : Bool) :
    attributesFor target c m (nativeHead h) isRoot = attributesFor target c m h isRoot := by
  rw [Generate.attributesFor_eq, Generate.attributesFor_eq, Svelte.attributesOf, Svelte.attributesOf,
    primitive.gains_eq, primitive.nativeHead_eq]
  rfl

/-- A primitive and its native element show the content of callers alike, unless the native element
is void: only the primitive has a place for it then. -/
theorem IsPrimitive.native_needsPlaceholder_eq_iff (children : List Node) :
    needsPlaceholder (nativeHead h) (children.map normalize) = needsPlaceholder h children ↔
      ¬ (p.isVoid = true ∧ children = [] ∧ h.hasSpread = true) := by
  have spread : (nativeHead h).hasSpread = h.hasSpread := by
    rw [primitive.nativeHead_eq]
    rfl
  rw [needsPlaceholder, needsPlaceholder, primitive.native_isVoid, isVoid_of_wrapped primitive.wrapped,
    primitive.slotless, primitive.native_slotless, List.isEmpty_map, spread]
  cases p.isVoid <;> cases children <;> cases h.hasSpread <;> simp

-- an image without content of its own gets a place for the content of callers, unless it is normalized
example :
    let image : Head := { tag := "AvatarPrimitive.Image", bindings := [(spreadKey, ⟨"props", .spread⟩)] }
    needsPlaceholder image [] = true ∧ needsPlaceholder (nativeHead image) [] = false := by
  decide +kernel

theorem IsPrimitive.native_needsPlaceholder (plain : p.isVoid = false) (children : List Node) :
    needsPlaceholder (nativeHead h) (children.map normalize) = needsPlaceholder h children :=
  (primitive.native_needsPlaceholder_eq_iff children).mpr (by simp [plain])

end Head

theorem needsPlaceholder_map (h : Head) (children : List Node) :
    needsPlaceholder h (children.map normalize) = needsPlaceholder h children := by
  rw [needsPlaceholder, needsPlaceholder, List.isEmpty_map]

theorem isInlineContent_map (children : List Node) :
    isInlineContent (children.map normalize) = isInlineContent children := by
  rw [isInlineContent, isInlineContent, List.all_map]
  refine List.all_congr rfl fun n => ?_
  cases n <;> rfl

mutual
theorem hasElement_normalize : ∀ n : Node, hasElement (normalize n) = hasElement n
  | .element _ _ => rfl
  | .fragment cs => by
    rw [normalize, hasElement, hasElement, anyElement_normalize cs]
  | .guarded _ c => by
    rw [normalize, hasElement, hasElement, hasElement_normalize c]
  | .text _ _ => rfl
  | .slot _ => rfl
  | .foreign _ => rfl
theorem anyElement_normalize : ∀ ns : List Node, anyElement (normalizeList ns) = anyElement ns
  | [] => rfl
  | n :: ns => by
    rw [normalizeList, anyElement, anyElement, hasElement_normalize n, anyElement_normalize ns]
end

theorem normalize_plain {h : Head} (plain : h.isWrappedPrimitive = false) (children : List Node) :
    normalize (.element h children) = .element h (children.map normalize) := by
  rw [normalize, nativeHead_of_plain plain, becomesVoid, plain, Bool.false_and,
    if_neg Bool.false_ne_true, normalizeList_eq_map]

theorem IsPrimitive.normalize_eq {h : Head} {p : Primitive} (primitive : IsPrimitive h p)
    (plain : p.isVoid = false) (children : List Node) :
    normalize (.element h children) = .element (nativeHead h) (children.map normalize) := by
  rw [normalize, primitive.becomesVoid, plain, if_neg Bool.false_ne_true, normalizeList_eq_map]

/-! ## Attribute text -/

/-- The text of an attribute that is read back as it is written. -/
structure Readable (text : List Char) : Prop where
  balanced : Balanced false text
  start : text.head?.all (!isBlank ·) = true

def spaced (texts : List String) : List Char := texts.flatMap fun t => ' ' :: t.toList

theorem toList_openingTag (tag : String) (texts : List String) :
    (openingTag tag texts).toList = '<' :: (tag.toList ++ spaced texts) := by
  have joined : (String.join (texts.map (" " ++ ·))).toList = spaced texts := by
    rw [String.toList_join, List.flatMap_map, spaced]
    exact List.flatMap_congr fun t _ => by simp
  simp [openingTag, joined]

/-- Attributes that are read back one by one are read back together. -/
theorem attributes_spaced {texts : List String} (readable : ∀ t ∈ texts, Readable t.toList)
    (ending : ∀ t ∈ texts, t.toList.getLast?.any isValueEnd = true) : Attributes (spaced texts) where
  balanced := by
    induction texts with
    | nil => exact .nil false
    | cons t texts ih =>
      have rest := ih (fun u hu => readable u (by simp [hu])) (fun u hu => ending u (by simp [hu]))
      have own := (readable t (by simp)).balanced.append rest
      exact .char (by decide) (by decide) (by decide) (by decide) (fun _ => by decide) own
  spaced := by
    cases texts with
    | nil => exact .inl rfl
    | cons t texts =>
      have last := ending t (by simp)
      have start := (readable t (by simp)).start
      cases shape : t.toList with
      | nil =>
        rw [shape] at last
        exact absurd last (by simp)
      | cons c more =>
        rw [shape] at start
        exact .inr ⟨c, more ++ spaced texts, by simp [spaced, shape], by simpa using start⟩
  ending := by
    rcases List.eq_nil_or_concat texts with rfl | ⟨front, t, rfl⟩
    · rfl
    · have last := ending t (by simp)
      have shape : spaced (front.concat t) = (spaced front ++ [' ']) ++ t.toList := by simp [spaced]
      have nonempty : t.toList ≠ [] := by
        intro empty
        rw [empty] at last
        exact absurd last (by simp)
      rw [shape, List.getLast?_append_of_ne_nil _ nonempty]
      cases found : t.toList.getLast? with
      | none => rfl
      | some d =>
        rw [found] at last
        simpa using last

theorem ending_append (front : String) {back : String}
    (h : back.toList.getLast?.any isValueEnd = true) :
    (front ++ back).toList.getLast?.any isValueEnd = true := by
  have nonempty : back.toList ≠ [] := by
    intro empty
    rw [empty] at h
    exact absurd h (by simp)
  rwa [String.toList_append, List.getLast?_append_of_ne_nil _ nonempty]

/-! ## Forests that can be repaired -/

/-- Which attributes a target writes, and how it writes them, and guards where it writes them as
attributes. -/
structure Spelling where
  target : Target
  attributeText : Attribute → String
  directiveText? : String → Option String

section Forest

variable (spelling : Spelling) (c : Component) (m : Metadata)

/-- A primitive that a repair takes to its native element: the catalog knows it, it has no content
that a void element cannot have, and its attributes are read back as they are written. -/
structure Repairable (h : Head) (children : List Node) : Prop where
  known : (Catalog.nativeTag? h.tag).isSome = true
  childless : becomesVoid h = true → children = [] ∧ h.hasSpread = false
  readable : ∀ isRoot, ∀ a ∈ attributesFor spelling.target c m h isRoot,
    Readable (spelling.attributeText a).toList

/-- A node that is repairable if it is a primitive, or a guard of one that is read back as it is
written. -/
def NodeRepairable : Node → Prop
  | .element h children => h.isWrappedPrimitive = true → Repairable spelling c m h children
  | .guarded guard (.element h _) =>
    h.isWrappedPrimitive = true → ∀ text ∈ spelling.directiveText? guard, Readable text.toList
  | _ => True

def ForestRepairable (nodes : List Node) : Prop :=
  ∀ n ∈ Node.preorderList nodes, NodeRepairable spelling c m n

end Forest

section Below

variable {spelling : Spelling} {c : Component} {m : Metadata}

theorem ForestRepairable.of_element {h : Head} {children : List Node}
    (fits : ForestRepairable spelling c m [.element h children]) :
    (h.isWrappedPrimitive = true → Repairable spelling c m h children) ∧
      ForestRepairable spelling c m children :=
  ⟨fits (.element h children) (by simp [Node.preorderList, Node.preorder]),
    fun n member => fits n (by simp [Node.preorderList, Node.preorder, member])⟩

theorem ForestRepairable.of_fragment {children : List Node}
    (fits : ForestRepairable spelling c m [.fragment children]) :
    ForestRepairable spelling c m children :=
  fun n member => fits n (by simp [Node.preorderList, Node.preorder, member])

theorem ForestRepairable.of_guarded {guard : String} {child : Node}
    (fits : ForestRepairable spelling c m [.guarded guard child]) :
    NodeRepairable spelling c m (.guarded guard child) ∧ ForestRepairable spelling c m [child] :=
  ⟨fits (.guarded guard child) (by simp [Node.preorderList, Node.preorder]), fun n member =>
    fits n (by
      simp only [Node.preorderList, Node.preorder, List.append_nil] at member ⊢
      exact .tail _ member)⟩

theorem ForestRepairable.of_cons {n : Node} {nodes : List Node}
    (fits : ForestRepairable spelling c m (n :: nodes)) :
    ForestRepairable spelling c m [n] ∧ ForestRepairable spelling c m nodes :=
  ⟨fun k member => fits k (by
      simp only [Node.preorderList, List.append_nil] at member
      simp [Node.preorderList, member]),
    fun k member => fits k (by simp [Node.preorderList, member])⟩

end Below

end Recast.Normalize
