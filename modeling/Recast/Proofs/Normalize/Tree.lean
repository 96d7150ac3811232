import Recast.Analysis.Markup
import Recast.Proofs.Normalize.Catalog

/-!
# Normalized markup

Reading a source with normalization gives the nodes that reading it without gives, each primitive
under its native tag. A primitive whose native element is void loses its children that way.
-/

set_option autoImplicit false

namespace Recast.Normalize

open Recast.Markup Recast.Analysis Recast.Tsx

/-! ## Heads and nodes -/

def nativeHead (h : Head) : Head :=
  if h.isWrappedPrimitive then
    match Catalog.nativeTag? h.tag with
    | some tag => { h with tag, sourceTag := some h.tag }
    | none => h
  else h

/-- Whether an element is a primitive whose native element is void. -/
def becomesVoid (h : Head) : Bool := h.isWrappedPrimitive && (nativeHead h).isVoid

mutual
/-- A node with native tags for its primitives. -/
def normalize : Node → Node
  | .element h cs => .element (nativeHead h) (if becomesVoid h then [] else normalizeList cs)
  | .fragment cs => .fragment (normalizeList cs)
  | .guarded g c => .guarded g (normalize c)
  | .text s e => .text s e
  | .slot n => .slot n
  | .foreign t => .foreign t
def normalizeList : List Node → List Node
  | [] => []
  | n :: ns => normalize n :: normalizeList ns
end

theorem normalizeList_eq_map (ns : List Node) : normalizeList ns = ns.map normalize := by
  induction ns with
  | nil => rfl
  | cons n ns ih => rw [normalizeList, ih, List.map_cons]

theorem nativeHead_of_plain {h : Head} (plain : h.isWrappedPrimitive = false) : nativeHead h = h := by
  rw [nativeHead, plain, if_neg Bool.false_ne_true]

theorem dot_mem_lowerFrom {cs : List Char} (dot : '.' ∈ cs) (before : List Char) :
    '.' ∈ Text.lowerFrom before cs := by
  induction cs generalizing before with
  | nil => simp at dot
  | cons c cs ih =>
    rw [Text.lowerFrom, List.mem_append]
    rcases List.mem_cons.mp dot with rfl | later
    · exact .inl (by simp [Text.lowerChar])
    · exact .inr (ih later _)

/-- No void element has a dot in its tag. -/
theorem isVoid_of_wrapped {h : Head} (wrapped : h.isWrappedPrimitive = true) : h.isVoid = false := by
  have checked : Markup.voidTags.all (fun tag => !tag.toList.contains '.') = true := by decide +kernel
  have dot : '.' ∈ (Text.lower h.tag).toList := by
    rw [Text.lower, String.toList_ofList]
    exact dot_mem_lowerFrom (by simpa [Head.isWrappedPrimitive] using wrapped) []
  rw [Head.isVoid, isVoidTag, ← Bool.not_eq_true, List.contains_iff_mem]
  intro isVoid
  have undotted := List.all_eq_true.mp checked _ isVoid
  simp [dot] at undotted

/-! ## Adding attributes -/

def retagged (tag : String) (source : Option String) (h : Head) : Head :=
  { h with tag, sourceTag := source }

theorem addAttribute_retagged (tag : String) (source : Option String) (h : Head) (t : Tree) :
    addAttribute (retagged tag source h) t = retagged tag source (addAttribute h t) := by
  rw [addAttribute, addAttribute]
  cases t.parts with
  | nil => rfl
  | cons nameNode rest =>
    dsimp only
    by_cases isChildren : (nameNode.text == "children") = true
    · rw [if_pos isChildren, if_pos isChildren]
    · rw [if_neg isChildren, if_neg isChildren]
      cases rest.head? with
      | none => rfl
      | some value =>
        dsimp only
        repeat' split
        all_goals rfl

theorem addTagPart_retagged (tag : String) (source : Option String) (h : Head) (t : Tree) :
    addTagPart (retagged tag source h) t = retagged tag source (addTagPart h t) := by
  rw [addTagPart, addTagPart]
  split
  · exact addAttribute_retagged tag source h t
  · rw [addSpread, addSpread]
    repeat' split
    all_goals rfl
  · rfl

theorem addTagPart_tag (h : Head) (t : Tree) :
    (addTagPart h t).tag = h.tag ∧ (addTagPart h t).sourceTag = h.sourceTag := by
  have same := addTagPart_retagged h.tag h.sourceTag h t
  have self : retagged h.tag h.sourceTag h = h := rfl
  rw [self] at same
  rw [same]
  exact ⟨rfl, rfl⟩

/-- The attributes of a tag are the same under its native name. -/
theorem nativeHead_addTagPart (h : Head) (t : Tree) :
    nativeHead (addTagPart h t) = addTagPart (nativeHead h) t := by
  have kept := (addTagPart_tag h t).1
  have wrapped : (addTagPart h t).isWrappedPrimitive = h.isWrappedPrimitive := by
    rw [Head.isWrappedPrimitive, kept, Head.isWrappedPrimitive]
  rw [nativeHead, nativeHead, wrapped, kept]
  split
  · split
    · exact (addTagPart_retagged _ _ h t).symm
    · rfl
  · rfl

theorem nativeHead_foldl (h : Head) (parts : List Tree) :
    nativeHead (parts.foldl addTagPart h) = parts.foldl addTagPart (nativeHead h) := by
  induction parts generalizing h with
  | nil => rfl
  | cons t parts ih => rw [List.foldl_cons, ih, nativeHead_addTagPart, List.foldl_cons]

/-! ## The conversion -/

/-- The second computation gives the image of what the first one gives, whatever warnings there
are. -/
def Mirrors {α β : Type} (f : α → β) (x : Noting α) (y : Noting β) : Prop :=
  ∀ w w', (y.run w').1 = f (x.run w).1

section Mirrors

variable {α β γ δ : Type} {f : α → β}

theorem Mirrors.pure (f : α → β) (a : α) : Mirrors f (pure a) (pure (f a)) := fun _ _ => rfl

theorem Mirrors.bind {g : γ → δ} {x : Noting α} {y : Noting β} {k : α → Noting γ} {l : β → Noting δ}
    (h : Mirrors f x y) (next : ∀ a, Mirrors g (k a) (l (f a))) : Mirrors g (x >>= k) (y >>= l) := by
  intro w w'
  have here := h w w'
  have step := next (x.run w).1 (x.run w).2 (y.run w').2
  rw [← here] at step
  exact step

theorem Mirrors.mapM {ι : Type} {k : ι → Noting α} {l : ι → Noting β} (h : ∀ i, Mirrors f (k i) (l i))
    (items : List ι) : Mirrors (List.map f) (items.mapM k) (items.mapM l) := by
  induction items with
  | nil => exact Mirrors.pure (List.map f) []
  | cons i items ih =>
    rw [List.mapM_cons, List.mapM_cons]
    refine (h i).bind fun a => ih.bind fun as => ?_
    exact Mirrors.pure (List.map f) (a :: as)

end Mirrors

/-- Nodes without primitives are given as they are. -/
theorem Mirrors.fixed (nodes : List Node) (same : nodes.map normalize = nodes) :
    Mirrors (List.map normalize) (Pure.pure nodes : Noting (List Node)) (Pure.pure nodes) := by
  have mirror := Mirrors.pure (List.map normalize) nodes
  rwa [same] at mirror

section Conversion

variable (component : String) (aliases : Assoc String)

def contextOf (normalizePrimitives : Bool) : MarkupContext :=
  { component, aliases, normalizePrimitives }

theorem resolveTag_mirrors (raw : String) :
    Mirrors nativeHead (resolveTag (contextOf component aliases false) raw)
      (resolveTag (contextOf component aliases true) raw) := by
  simp only [resolveTag, contextOf, Bool.and_false, Bool.false_eq_true, if_false, Bool.and_true]
  generalize (aliases.get? raw).getD raw = tag
  by_cases wrapped : tag.toList.contains '.' = true
  · have head : nativeHead { tag } = match Catalog.nativeTag? tag with
        | some native => { tag := native, sourceTag := some tag }
        | none => { tag } := by
      rw [nativeHead, if_pos (show Head.isWrappedPrimitive { tag } = true from wrapped)]
    rw [if_pos wrapped]
    cases known : Catalog.nativeTag? tag with
    | some native =>
      rw [known] at head
      intro w w'
      exact head.symm
    | none =>
      rw [known] at head
      intro w w'
      exact head.symm
  · have head : nativeHead { tag } = { tag } :=
      nativeHead_of_plain (by simpa [Head.isWrappedPrimitive] using wrapped)
    rw [if_neg wrapped]
    intro w w'
    exact head.symm

theorem headOf_mirrors (tag : Tree) :
    Mirrors nativeHead (headOf (contextOf component aliases false) tag)
      (headOf (contextOf component aliases true) tag) := by
  refine (resolveTag_mirrors component aliases _).bind fun h => ?_
  rw [← nativeHead_foldl]
  exact Mirrors.pure nativeHead _

variable {below below' : Tree → Noting (List Node)}
  (mirrored : ∀ t, Mirrors (List.map normalize) (below t) (below' t))

include mirrored

theorem childrenOf_mirrors (t : Tree) :
    Mirrors (List.map normalize) (childrenOf below t) (childrenOf below' t) := by
  refine (Mirrors.mapM mirrored _).bind fun groups => ?_
  have flat : (groups.map (List.map normalize)).flatten = groups.flatten.map normalize := by simp
  rw [flat]
  exact Mirrors.pure (List.map normalize) _

omit mirrored in
theorem normalize_childless (h : Head) : normalize (.element h []) = .element (nativeHead h) [] := by
  simp [normalize, normalizeList]

/-- An element as it is built, without its children if it is void. -/
def built (h : Head) (children : List Node) : Node :=
  if !children.isEmpty && h.isVoid then .element h [] else .element h children

omit mirrored in
theorem normalize_built (h : Head) (children : List Node) :
    normalize (built h children) = built (nativeHead h) (children.map normalize) := by
  cases children with
  | nil => exact normalize_childless h
  | cons child children =>
    have drops : becomesVoid h = (h.isWrappedPrimitive && (nativeHead h).isVoid) := rfl
    cases wrapped : h.isWrappedPrimitive with
    | false =>
      have same := nativeHead_of_plain wrapped
      rw [wrapped, Bool.false_and] at drops
      cases isVoid : h.isVoid <;>
        simp [built, isVoid, normalize, same, drops, normalizeList_eq_map]
    | true =>
      have kept := isVoid_of_wrapped wrapped
      rw [wrapped, Bool.true_and] at drops
      cases isVoid : (nativeHead h).isVoid <;>
        simp [built, isVoid, kept, normalize, drops, normalizeList_eq_map]

theorem elementOf_mirrors (tag : Tree) (whole : Option Tree) :
    Mirrors normalize (elementOf (contextOf component aliases false) below tag whole)
      (elementOf (contextOf component aliases true) below' tag whole) := by
  refine (headOf_mirrors component aliases tag).bind fun h => ?_
  cases whole with
  | none =>
    rw [← normalize_childless]
    exact Mirrors.pure normalize _
  | some t =>
    refine (childrenOf_mirrors mirrored t).bind fun children => ?_
    have result : ∀ (h : Head) (children : List Node) (message : String) (w : List String),
        (StateT.run (if !children.isEmpty && h.isVoid then do
            warn message
            return .element h []
          else pure (.element h children) : Noting Node) w).1 = built h children := by
      intro h children message w
      rw [built]
      split <;> rfl
    intro w w'
    rw [result, result, normalize_built]

theorem guardedBranch_mirrors (guard : String) (branch : Option Tree) :
    Mirrors (List.map normalize) (guardedBranch below guard branch) (guardedBranch below' guard branch) := by
  rw [guardedBranch, guardedBranch]
  cases branch.filter isMarkup with
  | none => exact Mirrors.pure (List.map normalize) []
  | some t =>
    refine (mirrored t).bind fun nodes => ?_
    have shown : ((single? (nodes.map normalize)).map (Node.guarded guard)).toList =
        (((single? nodes).map (Node.guarded guard)).toList).map normalize := by
      match nodes with
      | [] => rfl
      | [n] => rfl
      | n :: m :: ns => simp [single?, normalize, normalizeList_eq_map]
    rw [shown]
    exact Mirrors.pure (List.map normalize) _

theorem expressionChild_mirrors (container : Tree) :
    Mirrors (List.map normalize) (expressionChild below container) (expressionChild below' container) := by
  rw [expressionChild, expressionChild]
  cases container.parts.head?.bind Tree.unwrap with
  | none => exact Mirrors.fixed _ rfl
  | some e =>
    dsimp only
    split
    · exact Mirrors.fixed _ rfl
    · split
      · exact Mirrors.fixed _ rfl
      · split
        · refine (guardedBranch_mirrors mirrored _ _).bind fun shown => ?_
          cases shown with
          | nil => exact Mirrors.fixed _ rfl
          | cons n ns => exact Mirrors.pure (List.map normalize) _
        · exact Mirrors.fixed _ rfl
      · refine (guardedBranch_mirrors mirrored _ _).bind fun yes => ?_
        refine (guardedBranch_mirrors mirrored _ _).bind fun no => ?_
        have shown : (yes.map normalize ++ no.map normalize) = (yes ++ no).map normalize := by simp
        rw [shown]
        cases yes ++ no with
        | nil => exact Mirrors.fixed _ rfl
        | cons n ns => exact Mirrors.pure (List.map normalize) _
      · exact Mirrors.fixed _ rfl

theorem convertNode_mirrors (t : Tree) :
    Mirrors (List.map normalize) (convertNode (contextOf component aliases false) below t)
      (convertNode (contextOf component aliases true) below' t) := by
  rw [convertNode, convertNode]
  cases t.unwrap with
  | none => exact Mirrors.fixed _ rfl
  | some t =>
    dsimp only
    split
    · split
      · refine (childrenOf_mirrors mirrored t).bind fun children => ?_
        rw [← normalizeList_eq_map]
        exact Mirrors.pure (List.map normalize) [.fragment children]
      · split
        · refine (elementOf_mirrors component aliases mirrored _ _).bind fun n => ?_
          exact Mirrors.pure (List.map normalize) [n]
        · refine Mirrors.fixed _ ?_
          rw [List.map_singleton, normalize_childless, nativeHead_of_plain (by decide)]
    · refine (elementOf_mirrors component aliases mirrored _ _).bind fun n => ?_
      exact Mirrors.pure (List.map normalize) [n]
    · split
      · exact Mirrors.fixed _ rfl
      · exact Mirrors.fixed _ rfl
    · exact Mirrors.fixed _ rfl
    · exact expressionChild_mirrors mirrored t
    · exact Mirrors.fixed _ rfl

omit mirrored

theorem convertUpTo_mirrors (n : Nat) (t : Tree) :
    Mirrors (List.map normalize) (convertUpTo (contextOf component aliases false) n t)
      (convertUpTo (contextOf component aliases true) n t) := by
  induction n generalizing t with
  | zero => exact Mirrors.fixed _ rfl
  | succ n ih => exact convertNode_mirrors component aliases ih t

/-- The markup of a component is read normalized as it is read without normalization and normalized
afterwards. -/
theorem convertRoot_mirrors (t : Tree) :
    Mirrors (List.map normalize) (convertRoot (contextOf component aliases false) t)
      (convertRoot (contextOf component aliases true) t) := by
  rw [convertRoot, convertRoot]
  cases t.unwrap with
  | none => exact Mirrors.fixed _ rfl
  | some u =>
    dsimp only
    split
    · exact childrenOf_mirrors (fun t => convertUpTo_mirrors component aliases _ t) u
    · exact convertUpTo_mirrors component aliases _ u

end Conversion

end Recast.Normalize
