import Recast.Proofs.Repair.Tags

/-!
# Substitution in nested dynamic tags

Dynamic tags as generators write them, nested to any depth between chunks of text. All their closing
tags are alike, so which native tag a closing tag becomes is known only from the tags that are open
there. `substituteTags_written` says that the substitution gets every one of them right: it returns
the text of the same forest with native tags in place of those that the table knows, and changes
nothing else.
-/

set_option autoImplicit false

namespace Recast.Repair

open Recast.Text

/-- What stands in a dynamic tag: the name of a component, and attributes that do not end the tag
early. -/
structure DynamicHead where
  name : String
  attributes : List Char
  name_ne_empty : name ≠ ""
  name_chars : ∀ c ∈ name.toList, isNameChar c = true
  attributes_balanced : Balanced false attributes
  attributes_end : (stripChars attributes).getLast? ≠ some '/'

/-- A part of the text: a chunk without tags, a dynamic tag around other parts, or a dynamic tag that
closes itself. -/
inductive Part where
  | text (chunk : List Char) (plain : '<' ∉ chunk)
  | element (head : DynamicHead) (children : List Part)
  | closed (head : DynamicHead)

/-- The inside of the opening tag, without the mark of a tag that closes itself. -/
def DynamicHead.content (target : Target) (h : DynamicHead) : List Char :=
  nameText target h.name.toList ++ h.attributes

/-- The trimmed attributes behind a blank, or nothing if there are none. -/
def DynamicHead.spaced (h : DynamicHead) : List Char :=
  if stripChars h.attributes = [] then [] else ' ' :: stripChars h.attributes

/-! ## The text of a forest -/

mutual
/-- A part with dynamic tags. -/
def Part.written (target : Target) : Part → List Char
  | .text chunk _ => chunk
  | .element h children =>
    '<' :: dynamicTag target ++ h.content target ++ ['>'] ++ written target children
      ++ closingMarker target
  | .closed h => '<' :: dynamicTag target ++ h.content target ++ [' ', '/', '>']
/-- A forest with dynamic tags. -/
def written (target : Target) : List Part → List Char
  | [] => []
  | part :: parts => part.written target ++ written target parts
end

mutual
/-- A part with native tags for the components in the table. Void elements are written like tags
that close themselves. -/
def Part.nativeText (target : Target) (table : Assoc String) : Part → List Char
  | .text chunk _ => chunk
  | .element h children =>
    match table.get? h.name with
    | none =>
      '<' :: dynamicTag target ++ h.content target ++ ['>'] ++ nativeText target table children
        ++ closingMarker target
    | some tag =>
      '<' :: tag.toList ++ h.spaced
        ++ (if Markup.voidTags.contains tag then [' ', '/', '>'] else ['>'])
        ++ nativeText target table children ++ '<' :: '/' :: tag.toList ++ ['>']
  | .closed h =>
    match table.get? h.name with
    | none => '<' :: dynamicTag target ++ h.content target ++ [' ', '/', '>']
    | some tag => '<' :: tag.toList ++ h.spaced ++ [' ', '/', '>']
/-- A forest with native tags for the components in the table. -/
def nativeText (target : Target) (table : Assoc String) : List Part → List Char
  | [] => []
  | part :: parts => part.nativeText target table ++ nativeText target table parts
end

mutual
/-- How many tags of a part have their component in the table. -/
def Part.mapped (table : Assoc String) : Part → Nat
  | .text _ _ => 0
  | .element h children => (if (table.get? h.name).isSome then 1 else 0) + mapped table children
  | .closed h => if (table.get? h.name).isSome then 1 else 0
/-- How many tags of a forest have their component in the table. -/
def mapped (table : Assoc String) : List Part → Nat
  | [] => 0
  | part :: parts => part.mapped table + mapped table parts
end

/-! ## Reading the tags of a forest -/

section Head

variable (target : Target) (table : Assoc String) (h : DynamicHead)

theorem DynamicHead.name_ne_nil : h.name.toList ≠ [] := by
  intro empty
  exact h.name_ne_empty (String.toList_eq_nil_iff.mp empty)

theorem DynamicHead.content_balanced : Balanced false (h.content target) :=
  (nameText_balanced target h.name_chars).append h.attributes_balanced

theorem DynamicHead.content_start (more : List Char) :
    (h.content target ++ more).head? = some ' ' := by
  cases target with
  | svelte => simp [DynamicHead.content, nameText_svelte]
  | vue => simp [DynamicHead.content, nameText_vue]

theorem DynamicHead.read_open : readOpening target table (h.content target) =
    ⟨(table.get? h.name).map String.toList, stripChars h.attributes, false⟩ := by
  have read := readOpening_open target table h.name_ne_nil h.name_chars h.attributes_end
  rwa [String.ofList_toList] at read

theorem DynamicHead.read_closed : readOpening target table (h.content target ++ [' ', '/']) =
    ⟨(table.get? h.name).map String.toList, stripChars h.attributes, true⟩ := by
  have read := readOpening_closed target table h.name_ne_nil h.name_chars h.attributes
  rwa [String.ofList_toList] at read

theorem DynamicHead.nativeOpening_eq (tag : String) (closesItself : Bool) :
    nativeOpening tag.toList (stripChars h.attributes) closesItself =
      '<' :: tag.toList ++ h.spaced
        ++ (if closesItself || Markup.voidTags.contains tag then [' ', '/', '>'] else ['>']) := by
  simp [nativeOpening, DynamicHead.spaced]

end Head

/-! ## The substitution in a forest -/

section Forest

variable (target : Target) (table : Assoc String)

theorem substituteAt_closed (h : DynamicHead) (stack : List (Option (List Char)))
    (rest : List Char) :
    substituteAt target table stack ((Part.closed h).written target ++ rest) =
      (substituteAt target table stack rest).behind ((Part.closed h).nativeText target table)
        ((Part.closed h).mapped table) := by
  have slash : Balanced false [' ', '/'] := .of_plain false (List.all_eq_true.mp rfl)
  have step := substituteAt_opening target table stack (h.content_start target [' ', '/'])
    ((h.content_balanced target).append slash) (h.read_closed target table) rest
  have text : (Part.closed h).written target =
      '<' :: dynamicTag target ++ (h.content target ++ [' ', '/']) ++ ['>'] := by
    simp [Part.written]
  rw [text, step]
  cases found : table.get? h.name with
  | none => simp [Part.nativeText, Part.mapped, found]
  | some tag => simp [Part.nativeText, Part.mapped, found, h.nativeOpening_eq]

mutual
/-- One part is substituted on its own: the tags that are open in front of it are open behind it. -/
theorem substituteAt_part : ∀ (part : Part) (stack : List (Option (List Char))) (rest : List Char),
    substituteAt target table stack (part.written target ++ rest) =
      (substituteAt target table stack rest).behind (part.nativeText target table) (part.mapped table)
  | .text chunk plain, stack, rest =>
    substituteAt_inert target table stack (inert_of_not_mem target plain) rest
  | .closed h, stack, rest => substituteAt_closed target table h stack rest
  | .element h children, stack, rest => by
    have start : (h.content target).head? = some ' ' := by
      simpa using h.content_start target []
    have opened := substituteAt_opening target table stack start (h.content_balanced target)
      (h.read_open target table) (written target children ++ (closingMarker target ++ rest))
    have inside := substituteAt_forest children
      ((table.get? h.name).map String.toList :: stack) (closingMarker target ++ rest)
    have closed := substituteAt_closing target table stack
      ((table.get? h.name).map String.toList) rest
    simp only [Bool.false_eq_true, if_false, inside, closed, Repaired.behind_behind] at opened
    simp only [Part.written, List.append_assoc, List.cons_append] at opened ⊢
    rw [opened]
    cases found : table.get? h.name with
    | none => simp [Part.nativeText, Part.mapped, found, closeTag]
    | some tag => simp [Part.nativeText, Part.mapped, found, closeTag, h.nativeOpening_eq]
/-- A forest is substituted part by part. -/
theorem substituteAt_forest : ∀ (parts : List Part) (stack : List (Option (List Char)))
    (rest : List Char),
    substituteAt target table stack (written target parts ++ rest) =
      (substituteAt target table stack rest).behind (nativeText target table parts) (mapped table parts)
  | [], stack, rest => by simp [written, nativeText, mapped, Repaired.behind]
  | part :: parts, stack, rest => by
    rw [written, List.append_assoc, substituteAt_part part stack (written target parts ++ rest),
      substituteAt_forest parts stack rest, Repaired.behind_behind, nativeText, mapped]
end

/-- Substituting native tags in a forest of dynamic tags replaces the opening and the closing tag of
every element whose component is in the table, counts each of them once, leaves every other tag and
all text alone, and finds something to close for every closing tag. -/
theorem substituteTags_written (forest : List Part) :
    substituteTags (written target forest) target table =
      { text := nativeText target table forest, replaced := mapped table forest, unmatched := 0 } := by
  have run := substituteAt_forest target table forest [] []
  rw [List.append_nil, substituteAt_nil] at run
  rw [substituteTags_eq, run]
  simp [Repaired.behind]

end Forest

end Recast.Repair
