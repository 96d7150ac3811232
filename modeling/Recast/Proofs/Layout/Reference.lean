import Recast.Proofs.Analysis.Descent
import Recast.Proofs.Analysis.Markup
import Recast.Proofs.Layout.Flat
import Recast.Proofs.Normalize.Tree

/-!
# References to components

An element whose tag refers to a component keeps its children when it is read, and is written around
them by both targets, unless its tag is that of a void element up to capitals. Then it loses them and
closes itself.
-/

set_option autoImplicit false

namespace Recast.Analysis

open Recast.Tsx Recast.Markup

/-! ## Reading an element -/

/-- The opening tag of the element that a tree spells, and the whole of it where it has content. -/
inductive Spells (t : Tree) : Tree → Option Tree → Prop
  | paired {e tag : Tree} : t.unwrap = some e → e.kind = .element → isFragment e = false →
      e.field? .openTag = some tag → Spells t tag (some e)
  | selfClosed {e : Tree} : t.unwrap = some e → e.kind = .selfClosingTag → Spells t e none

/-- The head of an element and its children as they are converted. -/
def readElement (ctx : MarkupContext) (tag : Tree) : Option Tree → Noting (Head × List Node)
  | none => do return (← headOf ctx tag, [])
  | some whole => do
    let h ← headOf ctx tag
    return (h, ← childrenOf (convert ctx) whole)

theorem convert_of_spells (ctx : MarkupContext) {t tag : Tree} {whole : Option Tree}
    (spelled : Spells t tag whole) :
    convert ctx t = do return [← elementOf ctx (convert ctx) tag whole] := by
  rw [convert_eq, convertNode]
  cases spelled with
  | paired unwrapped kind named opens => simp [unwrapped, kind, named, opens]
  | selfClosed unwrapped kind => simp [unwrapped, kind]

theorem finished_run (message : String) (h : Head) (children : List Node) (noted : List String) :
    ((if !children.isEmpty && h.isVoid then do
        warn message
        return .element h []
      else return .element h children : Noting Node).run noted).1 =
      .element h (if h.isVoid then [] else children) := by
  cases h.isVoid <;> cases children <;> rfl

theorem elementOf_run (ctx : MarkupContext) (tag e : Tree) (noted : List String) {h : Head}
    {children : List Node} (read : ((readElement ctx tag (some e)).run noted).1 = (h, children)) :
    ((elementOf ctx (convert ctx) tag (some e)).run noted).1 =
      .element h (if h.isVoid then [] else children) := by
  rw [readElement] at read
  rw [elementOf]
  -- Under names of their own the two steps are run without being opened.
  obtain ⟨head, headRead⟩ : ∃ head, headOf ctx tag = head := ⟨_, rfl⟩
  obtain ⟨content, contentRead⟩ : ∃ content, childrenOf (convert ctx) e = content := ⟨_, rfl⟩
  rw [headRead, contentRead] at read
  rw [headRead]
  simp only [contentRead]
  obtain ⟨rfl, rfl⟩ := Prod.mk.inj read
  exact finished_run _ _ _ _

/-- Of the children that were read, an element has all or, if it is void, none. -/
theorem convert_run (ctx : MarkupContext) {t tag : Tree} {whole : Option Tree}
    (spelled : Spells t tag whole) (noted : List String) {h : Head} {children : List Node}
    (read : ((readElement ctx tag whole).run noted).1 = (h, children)) :
    ((convert ctx t).run noted).1 = [.element h (if h.isVoid then [] else children)] := by
  rw [convert_of_spells ctx spelled]
  cases whole with
  | none =>
    obtain ⟨rfl, rfl⟩ := Prod.mk.inj read
    rw [ite_self]
    rfl
  | some e =>
    exact congrArg (fun n => [n]) (elementOf_run ctx tag e noted read)

end Recast.Analysis

namespace Recast.Layout

open Recast.Text Recast.Generate Recast.Markup Recast.Tsx Recast.Analysis
open Recast.Normalize (isVoid_of_wrapped)

/-! ## Writing an element -/

/-- Lines that start with the opening tag of an element and end with its closing tag, with the ink of
its content between them. -/
def Encloses (lines : List String) (opening tag inside : String) : Prop :=
  ∃ front middle : String, front.toList.all isBlank = true ∧
    join "\n" lines = front ++ opening ++ ">" ++ middle ++ "</" ++ tag ++ ">" ∧ ink middle = ink inside

theorem join_cons {line : String} {lines : List String} (nonempty : lines ≠ []) :
    join "\n" (line :: lines) = line ++ "\n" ++ join "\n" lines := by
  cases lines with
  | nil => exact absurd rfl nonempty
  | cons next rest => rfl

theorem join_concat {lines : List String} (nonempty : lines ≠ []) (last : String) :
    join "\n" (lines ++ [last]) = join "\n" lines ++ "\n" ++ last := by
  induction lines with
  | nil => exact absurd rfl nonempty
  | cons line lines ih =>
    cases lines with
    | nil => rfl
    | cons next rest =>
      rw [List.cons_append, join_cons (by simp), join_cons (by simp), ih (by simp)]
      simp only [String.append_assoc]

theorem elementLines_encloses (depth : Nat) (opening tag : String) (isInline : Bool) {content : List String}
    {inside : String} (same : lineInk content = ink inside) :
    Encloses (elementLines depth opening tag false isInline content) opening tag inside := by
  have lineEnd : ink "\n" = [] := ink_of_blank (by decide)
  refine ⟨pad depth, ?_⟩
  match content with
  | [] =>
    refine ⟨"", pad_blank depth, ?_, same⟩
    simp [← String.toList_inj, elementLines, join]
  | [line] =>
    rw [lineInk_cons, lineInk_nil, List.append_nil] at same
    cases isInline with
    | true =>
      refine ⟨strip line, pad_blank depth, ?_, (ink_strip line).trans same⟩
      simp [elementLines, join, String.append_assoc]
    | false =>
      refine ⟨"\n" ++ line ++ "\n" ++ pad depth, pad_blank depth, ?_, ?_⟩
      · simp [← String.toList_inj, elementLines, join]
      · simp [ink_pad, lineEnd, same]
  | line :: next :: rest =>
    obtain ⟨lines, inner⟩ : ∃ lines, line :: next :: rest = lines := ⟨_, rfl⟩
    have around : elementLines depth opening tag false isInline (line :: next :: rest) =
      (pad depth ++ opening ++ ">") :: (lines ++ [pad depth ++ ("</" ++ tag ++ ">")]) := by
        rw [← inner]
        rfl
    have nonempty : lines ≠ [] := by simp [← inner]
    refine ⟨"\n" ++ join "\n" lines ++ "\n" ++ pad depth, pad_blank depth, ?_, ?_⟩
    · rw [around, join_cons (by simp), join_concat nonempty]
      simp [← String.toList_inj]
    · simp [ink_pad, lineEnd, ink_lines, ← inner, same]

/-- The two ways to write an element do not overlap. -/
theorem not_encloses_closed (depth : Nat) (tag : String) (attributes : List String) (name inside : String) :
    ¬ Encloses [pad depth ++ openingTag tag attributes ++ " />"] (openingTag tag attributes) name inside := by
  rintro ⟨front, middle, blank, same, -⟩
  obtain ⟨rest, opening⟩ : ∃ rest, (openingTag tag attributes).toList = '<' :: rest := by
    simp [openingTag]
  have chars := congrArg String.toList same
  simp only [join, String.toList_append, opening, List.append_assoc, List.cons_append] at chars
  have unmarked : ∀ text : String, text.toList.all isBlank = true → '<' ∉ text.toList := by
    intro text blanks member
    exact absurd (List.all_eq_true.mp blanks _ member) (by decide)
  obtain ⟨-, behind⟩ :=
    append_cons_inj_of_not_mem (unmarked _ (pad_blank depth)) (unmarked _ blank) chars
  cases List.append_cancel_left behind

theorem slotless_of_reference {h : Head} (reference : h.isComponentReference = true) :
    slotlessTags.contains h.tag = false := by
  rw [← Bool.not_eq_true, List.contains_iff_mem]
  intro member
  have checked : ∀ tag ∈ slotlessTags, ({ tag } : Head).isComponentReference = false := by decide +kernel
  have other : h.isComponentReference = false := checked h.tag member
  rw [reference] at other
  cases other

namespace Svelte

open Recast.Generate.Svelte

variable (s : Setting)

/-- An element is written around its children, or around the place for content if it has none. -/
def Wraps (rootAhead : Bool) (depth : Nat) (h : Head) (children : List Node) : Prop :=
  ∃ lines, nodeLines s rootAhead depth (.element h children) = .ok lines ∧
    Encloses lines (opening s h rootAhead) (tagName h)
      (if needsPlaceholder h children then s.placeholder else flatForest s false children)

theorem wraps_iff {h : Head} {children : List Node} (sound : Sound [.element h children])
    (rootAhead : Bool) (depth : Nat) : Wraps s rootAhead depth h children ↔ h.isVoid = false := by
  obtain ⟨ps, rendered, same⟩ := pieces_ink s children false (depth + 1) (sound_element.mp sound).2
  rw [Wraps, nodeLines]
  cases isVoid : h.isVoid with
  | true =>
    rw [if_pos rfl]
    refine iff_of_false ?_ Bool.noConfusion
    rintro ⟨lines, ⟨⟩, encloses⟩
    exact not_encloses_closed depth _ _ _ _ encloses
  | false =>
    have childless : needsPlaceholder h children = true → ps = [] := by
      intro needed
      rw [needsPlaceholder_childless needed, pieces] at rendered
      exact (Except.ok.inj rendered).symm
    rw [if_neg Bool.noConfusion, rendered]
    exact iff_of_true ⟨_, rfl, elementLines_encloses depth _ _ _ (content_ink childless same)⟩ rfl

end Svelte

namespace Vue

open Recast.Generate.Vue

variable (s : Setting)

def Wraps (rootAhead : Bool) (depth : Nat) (directive : Option String) (h : Head)
    (children : List Node) : Prop :=
  ∃ lines, nodeLines s rootAhead depth directive (.element h children) = .ok lines ∧
    Encloses lines (opening s h rootAhead directive) (tagName h)
      (if needsPlaceholder h children then placeholder else flatForest s false children)

-- Native elements without slots close themselves too, so the tag has to refer to a component.
theorem wraps_iff {h : Head} {children : List Node} (reference : h.isComponentReference = true)
    (sound : Sound [.element h children]) (rootAhead : Bool) (depth : Nat) (directive : Option String) :
    Wraps s rootAhead depth directive h children ↔ h.isVoid = false := by
  obtain ⟨childless, below⟩ := sound_element.mp sound
  obtain ⟨ps, rendered, same⟩ := pieces_ink s children false (depth + 1) below
  have empty : children = [] → ps = [] := by
    rintro rfl
    rw [pieces] at rendered
    exact (Except.ok.inj rendered).symm
  have closed : closesItself h children = h.isVoid := by
    rw [closesItself, slotless_of_reference reference, Bool.false_and, Bool.or_false]
  rw [Wraps, nodeLines, rendered, closed]
  cases isVoid : h.isVoid with
  | true =>
    have unneeded : needsPlaceholder h children = false := by
      rw [needsPlaceholder, isVoid]
      rfl
    rw [empty (childless isVoid), unneeded]
    refine iff_of_false ?_ Bool.noConfusion
    rintro ⟨lines, ⟨⟩, encloses⟩
    rw [layout_nil] at encloses
    exact not_encloses_closed depth _ _ _ _ encloses
  | false =>
    have childless' : needsPlaceholder h children = true → ps = [] :=
      fun needed => empty (needsPlaceholder_childless needed)
    exact iff_of_true ⟨_, rfl, elementLines_encloses depth _ _ _ (content_ink childless' same)⟩ rfl

end Vue

/-- A reference to a component keeps the children that were read and is written around them by both
targets, unless its tag is that of a void element up to capitals. A dotted tag never is. -/
theorem reference_kept_iff (ctx : MarkupContext) {t tag : Tree} {whole : Option Tree}
    (spelled : Spells t tag whole) (noted : List String) {h : Head} {children : List Node}
    (read : ((readElement ctx tag whole).run noted).1 = (h, children))
    (reference : h.isComponentReference = true) :
    (h.isWrappedPrimitive = true → isVoidTag h.tag = false) ∧
    ∃ kept, ((convert ctx t).run noted).1 = [.element h kept] ∧
      (kept = children ↔ (isVoidTag h.tag = true → children = [])) ∧
      ∀ (c : Component) (m : Metadata) (runes rootAhead : Bool) (depth : Nat) (directive : Option String),
        (Svelte.Wraps ⟨c, m, runes⟩ rootAhead depth h kept ↔ isVoidTag h.tag = false) ∧
        (Vue.Wraps ⟨c, m⟩ rootAhead depth directive h kept ↔ isVoidTag h.tag = false) := by
  have run := convert_run ctx spelled noted read
  have sound : Sound [.element h (if h.isVoid then [] else children)] :=
    run ▸ convertUpTo_sound ctx _ t noted
  refine ⟨isVoid_of_wrapped, _, run, ?_, ?_⟩
  · rw [Head.isVoid]
    cases isVoidTag h.tag <;> simp [eq_comm]
  · intro c m runes rootAhead depth directive
    exact ⟨Svelte.wraps_iff _ sound rootAhead depth,
      Vue.wraps_iff _ reference sound rootAhead depth directive⟩

def homeTag (name : String) : Tree :=
  .mk .openingTag .openTag ("<" ++ name ++ ">") [.mk .identifier .name name []]

/-- An element of some name around a text. -/
def home (name : String) : Tree :=
  .mk .element .none ("<" ++ name ++ ">Home</" ++ name ++ ">") [
    homeTag name, .mk .text .none "Home" [], .mk .closingTag .none ("</" ++ name ++ ">") []]

theorem home_spells (name : String) : Spells (home name) (homeTag name) (some (home name)) := by
  refine .paired ?_ rfl rfl rfl
  rw [Tree.unwrap, if_neg]
  exact Kind.noConfusion

theorem childrenOf_home (ctx : MarkupContext) (name : String) :
    childrenOf (convert ctx) (home name) = pure [.text "Home" false] := by
  have shown : textValue "Home" = "Home" := by decide +kernel
  have text : convert ctx (.mk .text .none "Home" []) = pure [.text "Home" false] := by
    rw [convert_eq, convertNode, Tree.unwrap, if_neg Kind.noConfusion]
    simp [Tree.kind, Tree.text, shown]
  have content : childrenOf (convert ctx) (home name) = do
      return (← [Tree.mk .text .none "Home" []].mapM (convert ctx)).flatten := rfl
  rw [content, List.mapM_cons, text]
  rfl

theorem readElement_home (component name : String) (undotted : name.toList.contains '.' = false) :
    readElement { component } (homeTag name) (some (home name)) =
      pure ({ tag := name }, [.text "Home" false]) := by
  have resolved : resolveTag { component } name = pure { tag := name } := by
    have unaliased : (Assoc.get? name ([] : Assoc String)).getD name = name := rfl
    rw [resolveTag]
    simp only [unaliased, undotted, Bool.false_and, Bool.false_eq_true, if_false]
  have head : headOf { component } (homeTag name) = pure { tag := name } := by
    have named : (homeTag name).fieldText .name = name := rfl
    rw [headOf, named, resolved]
    rfl
  rw [readElement, head, childrenOf_home]
  rfl

theorem reference_kept_iff_anchor :
    ∃ kept, ((convert { component := "Menu" } (home "Anchor")).run []).1 =
        [.element { tag := "Anchor" } kept] ∧
      kept = [.text "Home" false] ∧
      Svelte.Wraps ⟨{ name := "Menu" }, {}, true⟩ true 0 { tag := "Anchor" } kept ∧
      Vue.Wraps ⟨{ name := "Menu" }, {}⟩ true 0 none { tag := "Anchor" } kept := by
  have read := congrArg (fun x => (x.run []).1) (readElement_home "Menu" "Anchor" (by decide))
  have filled : isVoidTag "Anchor" = false := by decide +kernel
  obtain ⟨-, kept, run, all, written⟩ :=
    reference_kept_iff _ (home_spells "Anchor") [] read (by decide +kernel)
  obtain ⟨svelte, vue⟩ := written { name := "Menu" } {} true true 0 none
  exact ⟨kept, run, all.mpr fun isVoid => absurd isVoid (by rw [filled]; decide),
    svelte.mpr filled, vue.mpr filled⟩

-- The same element under the name of a void one up to capitals.
example : ((convert { component := "Menu" } (home "Link")).run []).1 = [.element { tag := "Link" } []] := by
  have read := congrArg (fun x => (x.run []).1) (readElement_home "Menu" "Link" (by decide))
  have isVoid : ({ tag := "Link" } : Head).isVoid = true := by decide +kernel
  rw [convert_run _ (home_spells "Link") [] read, if_pos isVoid]

end Recast.Layout
