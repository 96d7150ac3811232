import Recast.Proofs.Text.Character
import Recast.Markup.Node
import Recast.Repair.Tags

/-!
# Wrapped primitives

A primitive of the catalog together with its native tag, and what holds for every entry of the
catalog: names are dotted and can be read back from a dynamic tag, and native tags are plain tags.
-/

set_option autoImplicit false

namespace Recast.Normalize

open Recast.Text Recast.Repair

/-- A wrapped primitive with its native tag. -/
structure Primitive where
  name : String
  tag : String
  known : Catalog.primitiveTags.get? name = some tag

def isTagLetter (c : Char) : Bool := c.isLower || c.isDigit

/-- Every name is a dotted name. The characters of a literal are found by unification, one entry after the
other, since the kernel takes long to decode a literal. -/
theorem names_checked : ∀ entry ∈ Catalog.primitiveTags,
    ∃ cs, entry.1 = String.ofList cs ∧ (cs.all isNameChar && cs.contains '.') = true := by
  delta Catalog.primitiveTags
  repeat refine List.forall_mem_cons.mpr ⟨⟨_, rfl, by decide +kernel⟩, ?_⟩
  exact List.forall_mem_nil _

theorem tags_checked : ∀ tag ∈ (Catalog.primitiveTags.map (·.2)).eraseDups,
    tag ≠ "" ∧ tag.toList.all isTagLetter = true ∧
      Markup.isVoidTag tag = Markup.voidTags.contains tag ∧ Markup.slotlessTags.contains tag = false := by
  decide +kernel

namespace Primitive

variable (p : Primitive)

theorem mem_catalog : (p.name, p.tag) ∈ Catalog.primitiveTags := by
  obtain ⟨front, back, split, _⟩ := List.lookup_eq_some_iff.mp p.known
  rw [split]
  simp

theorem name_checked : (p.name.toList.all isNameChar && p.name.toList.contains '.') = true := by
  obtain ⟨cs, same, checked⟩ := names_checked _ p.mem_catalog
  have chars : p.name.toList = cs := (congrArg String.toList same).trans String.toList_ofList
  rwa [chars]

theorem name_chars : ∀ c ∈ p.name.toList, isNameChar c = true := by
  have checked := p.name_checked
  rw [Bool.and_eq_true] at checked
  exact List.all_eq_true.mp checked.1

theorem dot_mem_name : '.' ∈ p.name.toList := by
  have checked := p.name_checked
  rw [Bool.and_eq_true] at checked
  simpa using checked.2

theorem name_ne_nil : p.name.toList ≠ [] := List.ne_nil_of_mem p.dot_mem_name

theorem tag_checked : p.tag ≠ "" ∧ p.tag.toList.all isTagLetter = true ∧
    Markup.isVoidTag p.tag = Markup.voidTags.contains p.tag ∧ Markup.slotlessTags.contains p.tag = false :=
  tags_checked p.tag (List.mem_eraseDups.mpr (List.mem_map.mpr ⟨_, p.mem_catalog, rfl⟩))

theorem tag_letters : ∀ c ∈ p.tag.toList, isTagLetter c = true := List.all_eq_true.mp p.tag_checked.2.1

theorem tag_ne_nil : p.tag.toList ≠ [] := by
  intro empty
  exact p.tag_checked.1 (String.toList_eq_nil_iff.mp empty)

def isVoid : Bool := Markup.voidTags.contains p.tag

theorem isVoidTag_tag : Markup.isVoidTag p.tag = p.isVoid := p.tag_checked.2.2.1

theorem tag_not_slotless : Markup.slotlessTags.contains p.tag = false := p.tag_checked.2.2.2

theorem dot_not_mem_tag : '.' ∉ p.tag.toList := by
  intro dot
  exact absurd (p.tag_letters _ dot) (by decide)

end Primitive

theorem isBlank_eq_false_of_isTagLetter {c : Char} (h : isTagLetter c = true) : isBlank c = false := by
  have alphanum : c.isAlphanum = true := by
    delta Char.isAlphanum Char.isAlpha
    rcases (Bool.or_eq_true _ _).mp h with lower | digit
    · simp [lower]
    · simp [digit]
  exact isBlank_eq_false_of_isWord (isWord_of_isAlphanum c (val_lt_of_isAlphanum alphanum) alphanum)

end Recast.Normalize
