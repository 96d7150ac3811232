import Mathlib.Data.List.Forall2
import Recast.Generate.Svelte.Component
import Recast.Proofs.Generate.Selection
import Recast.Proofs.Outcome
import Recast.Proofs.Runes.Twins

/-!
# Svelte markup in both styles

Rendering the same nodes in the older style and with runes either fails with the same report or gives
twins, line by line. Layout looks at blanks and at the number of lines only, so it treats twins alike.
-/

set_option autoImplicit false

namespace Recast.Runes

open Recast.Text Recast.Generate Recast.Generate.Svelte Recast.Markup

/-! ## Event names -/

/-- The key of an event binding: `on`, a capital letter, and letters, digits or underscores. -/
def IsEventKey (key : String) : Prop :=
  ∃ first rest, key.toList = 'o' :: 'n' :: first :: rest ∧ first.isUpper = true ∧
    ∀ c ∈ rest, (c.isAlphanum || c == '_') = true

theorem lowerChar_word {c : Char} (h : (c.isAlphanum || c == '_') = true) (before rest : List Char) :
    isWord c = true ∧ ∃ d, lowerChar before c rest = [d] ∧ isWord d = true := by
  have small : c.toNat < 128 := by
    delta Char.isAlphanum Char.isAlpha Char.isUpper Char.isLower Char.isDigit at h
    simp only [Bool.or_eq_true, Bool.and_eq_true, decide_eq_true_eq, beq_iff_eq,
      UInt32.le_iff_toNat_le, ge_iff_le] at h
    rcases h with ((h | h) | h) | rfl
    · have := h.2; simp at this; exact Nat.lt_of_le_of_lt this (by decide)
    · have := h.2; simp at this; exact Nat.lt_of_le_of_lt this (by decide)
    · have := h.2; simp at this; exact Nat.lt_of_le_of_lt this (by decide)
    · decide
  have checked : ∀ n < 128, ((Char.ofNat n).isAlphanum || Char.ofNat n == '_') = true →
      isWord (Char.ofNat n) = true ∧ isWord (Char.ofNat n).toLower = true := by decide +kernel
  have word := checked c.toNat small (by simpa using h)
  rw [Char.ofNat_toNat] at word
  have ascii : c.val < 128 := by
    rw [UInt32.lt_iff_toNat_lt]
    exact small
  exact ⟨word.1, c.toLower, by simp [lowerChar, ascii], word.2⟩

theorem lowerFrom_word {cs : List Char} (h : ∀ c ∈ cs, (c.isAlphanum || c == '_') = true)
    (before : List Char) : ∀ d ∈ lowerFrom before cs, isWord d = true := by
  induction cs generalizing before with
  | nil => simp [lowerFrom]
  | cons c cs ih =>
    obtain ⟨_, d, lowered, word⟩ := lowerChar_word (h c (by simp)) before cs
    intro e he
    rw [lowerFrom, lowered, List.singleton_append, List.mem_cons] at he
    rcases he with rfl | he
    · exact word
    · exact ih (fun d hd => h d (by simp [hd])) _ e he

theorem eventSubject?_of_isEventKey {key : String} {first : Char} {rest : List Char}
    (shape : key.toList = 'o' :: 'n' :: first :: rest) (upper : first.isUpper = true)
    (all : ∀ c ∈ rest, (c.isAlphanum || c == '_') = true) :
    eventSubject? key = some (first :: rest) := by
  have noLineFeed : (first :: rest).getLast? ≠ some '\n' := by
    intro last
    have member : '\n' ∈ first :: rest := List.mem_of_getLast? last
    rcases List.mem_cons.mp member with rfl | inRest
    · exact absurd upper (by decide)
    · exact absurd (all _ inRest) (by decide)
  have kept : withoutLineFeed key.toList = key.toList := by
    rw [withoutLineFeed, shape, if_neg]
    simpa [List.getLast?_cons_cons] using noLineFeed
  have capital : isCapitalWord (first :: rest) = true := by
    simp only [isCapitalWord, upper, Bool.true_and, List.all_eq_true]
    exact fun c hc => (lowerChar_word (all c hc) [] []).1
  have found : after? "on".toList key.toList = some (first :: rest) := by
    rw [shape, after?_eq_some_iff]
    rfl
  rw [eventSubject?, kept, found, Option.filter_some, if_pos capital]

theorem eventName_word {key : String} (h : IsEventKey key) :
    (eventName key).toList ≠ [] ∧ ∀ c ∈ (eventName key).toList, isWord c = true := by
  obtain ⟨first, rest, shape, upper, all⟩ := h
  have word : ∀ c ∈ first :: rest, (c.isAlphanum || c == '_') = true := by
    intro c hc
    rcases List.mem_cons.mp hc with rfl | hc
    · delta Char.isAlphanum Char.isAlpha
      simp [upper]
    · exact all c hc
  have name : (eventName key).toList = lowerChars (first :: rest) := by
    rw [eventName, eventSubject?_of_isEventKey shape upper all, String.toList_ofList]
  rw [name]
  refine ⟨?_, lowerFrom_word word []⟩
  obtain ⟨_, d, lowered, _⟩ := lowerChar_word (word first (by simp)) [] rest
  simp [lowerChars, lowerFrom, lowered]

/-! ## Attributes -/

/-- The keys of all event bindings are event keys. -/
def HasEventKeys (h : Head) : Prop := ∀ entry ∈ h.bindings, entry.2.kind = .event → IsEventKey entry.1

/-- An attribute that listens to an event with a word as its name, if it listens to one. -/
def NamesEvent : Attribute → Prop
  | .event name _ => name.toList ≠ [] ∧ ∀ c ∈ name.toList, isWord c = true
  | .gained ⟨name, .event _⟩ => IsEventKey name
  | _ => True

theorem mem_foldl_addMissing {h : Head} {candidates plan : List Gained} {g : Gained}
    (member : g ∈ candidates.foldl (addMissing h) plan) : g ∈ plan ∨ g ∈ candidates := by
  induction candidates generalizing plan with
  | nil => exact .inl member
  | cons first candidates ih =>
    rcases ih member with inPlan | inRest
    · simp only [addMissing] at inPlan
      split at inPlan
      · exact .inl inPlan
      · rcases List.mem_append.mp inPlan with old | new
        · exact .inl old
        · exact .inr (by simp_all)
    · exact .inr (by simp [inRest])

theorem isEventKey_onClick : IsEventKey "onClick" :=
  ⟨'C', "lick".toList, rfl, rfl, List.all_eq_true.mp (by decide)⟩

/-- The only event that an element gains is a click. -/
theorem namesEvent_of_mem_gains {c : Component} {m : Metadata} {h : Head} {isRoot : Bool} {g : Gained}
    (member : g ∈ gains c m h isRoot) : NamesEvent (.gained g) := by
  obtain ⟨name, value⟩ := g
  cases value with
  | event handler =>
    suffices name = "onClick" from this ▸ isEventKey_onClick
    cases isRoot with
    | false =>
      simp only [gains, childGains, Bool.false_eq_true, if_false] at member
      split at member <;> simp at member
    | true =>
      simp only [gains, rootGains, if_true] at member
      split at member
      · simp at member
      · have candidate := (mem_foldl_addMissing member).resolve_left (by simp)
        simp only [rootCandidates, List.mem_append] at candidate
        rcases candidate with ((candidate | candidate) | candidate) | candidate
        · split at candidate <;> simp at candidate
        · simp at candidate
        · split at candidate <;> simp at candidate
        · split at candidate
          · simp at candidate
            exact candidate.1
          · simp at candidate
  | _ => trivial

theorem namesEvent_of_mem_attributesOf {c : Component} {m : Metadata} {h : Head} {isRoot : Bool}
    (keys : HasEventKeys h) {a : Attribute} (member : a ∈ attributesOf c m h isRoot) :
    NamesEvent a := by
  cases mem_attributesOf_iff.mp member with
  | gained gain => exact namesEvent_of_mem_gains gain
  | event bound kind => exact eventName_word (keys _ bound kind)
  | _ => trivial

section Rendering

variable (c : Component) (m : Metadata)

/-- The settings that differ in the style only. -/
def olderSetting : Setting := ⟨c, m, false⟩

def runesSetting : Setting := ⟨c, m, true⟩

theorem eventAttribute_twins {name : String} (nonempty : name.toList ≠ [])
    (all : ∀ d ∈ name.toList, isWord d = true) (value : String) :
    TwinsApart (eventAttribute (olderSetting c m) name ++ "=" ++ value).toList
      (eventAttribute (runesSetting c m) name ++ "=" ++ value).toList := by
  simpa [eventAttribute, olderSetting, runesSetting] using
    (twinsApart_event nonempty all).append (.same value.toList)

theorem attributeText_twins {a : Attribute} (named : NamesEvent a) :
    TwinsApart (attributeText (olderSetting c m) a).toList
      (attributeText (runesSetting c m) a).toList := by
  cases a with
  | event name code => exact eventAttribute_twins c m named.1 named.2 _
  | gained g =>
    obtain ⟨name, value⟩ := g
    cases value with
    | event handler => exact eventAttribute_twins c m (eventName_word named).1 (eventName_word named).2 _
    | _ => exact (Twins.same _).apart
  | spread => exact twins_rest.apart
  | _ => exact (Twins.same _).apart

theorem openingTag_twins (tag : String) {ls rs : List String}
    (h : List.Forall₂ (fun l r => TwinsApart l.toList r.toList) ls rs) :
    Twins (openingTag tag ls).toList (openingTag tag rs).toList := by
  have attributes : Twins (String.join (ls.map (" " ++ ·))).toList
      (String.join (rs.map (" " ++ ·))).toList := by
    simp only [String.toList_join]
    induction h with
    | nil => exact .same []
    | @cons l r ls rs here _ ih =>
      have blank : Twins (' ' :: l.toList) (' ' :: r.toList) := here.cons (by decide)
      simpa using blank.append ih
  simpa [openingTag] using (Twins.same ("<" ++ tag).toList).append attributes

theorem opening_twins {h : Head} (keys : HasEventKeys h) (isRoot : Bool) :
    Twins (opening (olderSetting c m) h isRoot).toList
      (opening (runesSetting c m) h isRoot).toList := by
  refine openingTag_twins _ (List.rel_append ?_ ?_)
  · exact List.forall₂_same.mpr fun text _ => (Twins.same _).apart
  · rw [List.forall₂_map_left_iff, List.forall₂_map_right_iff]
    exact List.forall₂_same.mpr fun a member =>
      attributeText_twins c m (namesEvent_of_mem_attributesOf keys member)

/-! ## Lines -/

/-- Lines that are twins one by one. -/
def TwinLines : List String → List String → Prop :=
  List.Forall₂ fun l r => Twins l.toList r.toList

/-- Pieces of content that are the same text or have lines that are twins. -/
inductive TwinPieces : Piece → Piece → Prop
  | inline (text : String) : TwinPieces (.inline text) (.inline text)
  | block {ls rs : List String} : TwinLines ls rs → TwinPieces (.block ls) (.block rs)

theorem TwinLines.append {ls rs ls' rs' : List String} (h : TwinLines ls rs)
    (h' : TwinLines ls' rs') : TwinLines (ls ++ ls') (rs ++ rs') :=
  List.rel_append h h'

theorem twinLines_same (ls : List String) : TwinLines ls ls :=
  List.forall₂_same.mpr fun _ _ => .same _

theorem twinLines_singleton {l r : String} (h : Twins l.toList r.toList) : TwinLines [l] [r] :=
  .cons h .nil

theorem TwinLines.isEmpty_eq {ls rs : List String} (h : TwinLines ls rs) : ls.isEmpty = rs.isEmpty := by
  cases h <;> rfl

theorem layoutFrom_twins (depth : Nat) {ps qs : List Piece} (h : List.Forall₂ TwinPieces ps qs)
    (run : List String) : TwinLines (layoutFrom depth run ps) (layoutFrom depth run qs) := by
  induction h generalizing run with
  | nil => exact twinLines_same _
  | cons here _ ih =>
    cases here with
    | inline text => exact ih _
    | block lines => exact ((twinLines_same _).append lines).append (ih _)

theorem elementLines_twins (depth : Nat) (tag : String) (closesItself isInline : Bool) {o o' : String}
    (tags : Twins o.toList o'.toList) {ls rs : List String} (content : TwinLines ls rs) :
    TwinLines (elementLines depth o tag closesItself isInline ls)
      (elementLines depth o' tag closesItself isInline rs) := by
  have behind : ∀ text : String, Twins (pad depth ++ o ++ text).toList (pad depth ++ o' ++ text).toList := by
    intro text
    simpa using ((Twins.same (pad depth).toList).append tags).append (.same text.toList)
  cases content with
  | nil =>
    refine twinLines_singleton ?_
    simpa using behind (if closesItself then " />" else ">" ++ ("</" ++ tag ++ ">"))
  | @cons l r ls rs first more =>
    cases more with
    | nil =>
      cases isInline with
      | true =>
        have inside : Twins ('>' :: stripChars l.toList) ('>' :: stripChars r.toList) :=
          first.apart.strip.cons (by decide)
        have whole := ((behind "").append inside).append (.same ("</" ++ tag ++ ">").toList)
        refine twinLines_singleton ?_
        simpa [strip] using whole
      | false =>
        exact .cons (behind ">") (.cons first (.cons (.same _) .nil))
    | cons second more =>
      have lines : TwinLines (l :: _ :: _) (r :: _ :: _) := .cons first (.cons second more)
      exact ((twinLines_singleton (behind ">")).append lines).append (twinLines_same _)

/-! ## Nodes -/

/-- The event bindings in a forest have event keys. -/
def ForestHasEventKeys (nodes : List Node) : Prop :=
  ∀ h cs, Node.element h cs ∈ Node.preorderList nodes → HasEventKeys h

theorem placeholder_twins (depth : Nat) :
    Twins (pad depth ++ (olderSetting c m).placeholder).toList
      (pad depth ++ (runesSetting c m).placeholder).toList := by
  rw [String.toList_append, String.toList_append]
  exact (Twins.same (pad depth).toList).append twins_slot

theorem content_twins (h : Head) (children : List Node) (depth : Nat) {ps qs : List Piece}
    (related : List.Forall₂ TwinPieces ps qs) :
    TwinLines
      (if (layout (depth + 1) ps).isEmpty && needsPlaceholder h children then
        [pad (depth + 1) ++ (olderSetting c m).placeholder] else layout (depth + 1) ps)
      (if (layout (depth + 1) qs).isEmpty && needsPlaceholder h children then
        [pad (depth + 1) ++ (runesSetting c m).placeholder] else layout (depth + 1) qs) := by
  have lines : TwinLines (layout (depth + 1) ps) (layout (depth + 1) qs) :=
    layoutFrom_twins (depth + 1) related []
  rw [lines.isEmpty_eq]
  split
  · exact twinLines_singleton (placeholder_twins c m _)
  · exact lines

mutual
theorem nodeLines_alike : ∀ (n : Node) (rootAhead : Bool) (depth : Nat), ForestHasEventKeys [n] →
    Alike TwinLines (nodeLines (olderSetting c m) rootAhead depth n)
      (nodeLines (runesSetting c m) rootAhead depth n)
  | .element h children, rootAhead, depth, keys => by
    have own : HasEventKeys h := keys h children (by simp [Node.preorderList, Node.preorder])
    have below : ForestHasEventKeys children := fun h' cs member =>
      keys h' cs (by simp [Node.preorderList, Node.preorder, member])
    have tags := opening_twins c m own rootAhead
    rw [nodeLines, nodeLines]
    split
    · exact .ok (elementLines_twins depth _ true true tags .nil)
    · refine (pieces_alike children false (depth + 1) below).bind fun ps qs related => ?_
      exact .ok (elementLines_twins depth _ false _ tags (content_twins c m h children depth related))
  | .text content isExpression, rootAhead, depth, _ => by
    rw [nodeLines, nodeLines]
    exact .ok (twinLines_same _)
  | .fragment children, rootAhead, depth, keys => by
    have below : ForestHasEventKeys children := fun h cs member =>
      keys h cs (by simp [Node.preorderList, Node.preorder, member])
    rw [nodeLines, nodeLines]
    refine (pieces_alike children rootAhead depth below).bind fun ps qs related => ?_
    exact .ok (layoutFrom_twins depth related [])
  | .guarded guard child, rootAhead, depth, keys => by
    have below : ForestHasEventKeys [child] := fun h cs member =>
      keys h cs (by simpa [Node.preorderList, Node.preorder] using member)
    rw [nodeLines, nodeLines]
    refine (nodeLines_alike child rootAhead (depth + 1) below).bind fun ls rs related => ?_
    exact .ok (((twinLines_same _).append related).append (twinLines_same _))
  | .slot _, rootAhead, depth, _ => by
    rw [nodeLines, nodeLines]
    exact .ok (twinLines_singleton (placeholder_twins c m depth))
  | .foreign typeName, rootAhead, depth, _ => by
    rw [nodeLines, nodeLines]
    exact .error _
theorem pieces_alike : ∀ (nodes : List Node) (rootAhead : Bool) (depth : Nat),
    ForestHasEventKeys nodes →
    Alike (List.Forall₂ TwinPieces) (pieces (olderSetting c m) rootAhead depth nodes)
      (pieces (runesSetting c m) rootAhead depth nodes)
  | [], rootAhead, depth, _ => by
    rw [pieces, pieces]
    exact .ok .nil
  | n :: ns, rootAhead, depth, keys => by
    have first : ForestHasEventKeys [n] := fun h cs member =>
      keys h cs (by simp_all [Node.preorderList])
    have more : ForestHasEventKeys ns := fun h cs member =>
      keys h cs (by simp [Node.preorderList, member])
    have rest := pieces_alike ns (rootAhead && !hasElement n) depth more
    by_cases isText : ∃ content isExpression, n = .text content isExpression
    · obtain ⟨content, isExpression, rfl⟩ := isText
      rw [pieces, pieces]
      refine Alike.bind (R := TwinPieces) (.ok (.inline _)) fun p q here => ?_
      exact rest.bind fun ps qs related => .ok (.cons here related)
    · have block := (nodeLines_alike n rootAhead depth first).map fun _ _ => TwinPieces.block
      rw [pieces, pieces]
      · refine block.bind fun p q here => ?_
        exact rest.bind fun ps qs related => .ok (.cons here related)
      · intro content isExpression e
        exact isText ⟨content, isExpression, e⟩
      · intro content isExpression e
        exact isText ⟨content, isExpression, e⟩
end

end Rendering

end Recast.Runes
