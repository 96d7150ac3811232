import Mathlib.Data.List.Forall2
import Recast.Proofs.Text.Found

/-!
# Blocks that a rewrite keeps

A text is rewritten piece by piece. What the changed pieces leave alone stands in the new text as before and in
the same order, also where it takes parts of several pieces.
-/

set_option autoImplicit false

namespace Recast.Text

variable {α : Type}

/-- The blocks stand in a text one behind the other. -/
inductive StandInOrder : List (List Char) → List Char → Prop
  | nil {text : List Char} : StandInOrder [] text
  | cons {gap block rest : List Char} {blocks : List (List Char)} :
      StandInOrder blocks rest → StandInOrder (block :: blocks) (gap ++ (block ++ rest))

theorem StandInOrder.behind {blocks : List (List Char)} {text : List Char} (h : StandInOrder blocks text)
    (front : List Char) : StandInOrder blocks (front ++ text) := by
  cases h with
  | nil => exact .nil
  | cons rest =>
    rw [← List.append_assoc]
    exact .cons rest

theorem StandInOrder.append {blocks others : List (List Char)} {text back : List Char}
    (h : StandInOrder blocks text) (behind : StandInOrder others back) :
    StandInOrder (blocks ++ others) (text ++ back) := by
  induction h with
  | nil => exact behind.behind _
  | cons _ ih =>
    rw [List.append_assoc, List.append_assoc]
    exact .cons ih

theorem StandInOrder.before {blocks : List (List Char)} {text : List Char} (h : StandInOrder blocks text)
    (back : List Char) : StandInOrder blocks (text ++ back) := by
  have whole := h.append (@StandInOrder.nil back)
  rwa [List.append_nil] at whole

/-- Empty blocks stand anywhere. -/
theorem StandInOrder.of_filter {β : Type} {block : β → List Char} {p : β → Bool}
    (others : ∀ b, p b = false → block b = []) {items : List β} (front : List (List Char)) {text : List Char}
    (h : StandInOrder (front ++ (items.filter p).map block) text) :
    StandInOrder (front ++ items.map block) text := by
  induction front generalizing text with
  | cons first front ih =>
    cases h with
    | cons rest => exact .cons (ih rest)
  | nil =>
    induction items generalizing text with
    | nil => exact .nil
    | cons item items ih =>
      cases own : p item with
      | false =>
        rw [List.filter_cons_of_neg (by simp [own])] at h
        rw [List.map_cons, others item own]
        exact @StandInOrder.cons [] [] _ _ (ih h)
      | true =>
        rw [List.filter_cons_of_pos own] at h
        cases h with
        | cons rest => exact .cons (ih rest)

/-- The blocks behind some others. -/
theorem StandInOrder.of_append {front blocks : List (List Char)} {text : List Char}
    (h : StandInOrder (front ++ blocks) text) : StandInOrder blocks text := by
  induction front generalizing text with
  | nil => exact h
  | cons first front ih =>
    cases h with
    | cons rest => exact ((ih rest).behind _).behind _

/-- Ends of some of the blocks stand in order where the blocks do. -/
theorem StandInOrder.of_suffixes {blocks whole : List (List Char)} {text : List Char}
    (ends : List.SublistForall₂ (· <:+ ·) blocks whole) (h : StandInOrder whole text) :
    StandInOrder blocks text := by
  induction ends generalizing text with
  | nil => exact .nil
  | cons suffix _ ih =>
    cases h with
    | cons rest =>
      obtain ⟨front, rfl⟩ := suffix
      rw [List.append_assoc, ← List.append_assoc]
      exact .cons (ih rest)
  | cons_right _ ih =>
    cases h with
    | cons rest =>
      rw [← List.append_assoc]
      exact (ih rest).behind _

/-! ## Recognized pieces -/

def Segment.hitText? : Segment α → Option (List Char)
  | .plain _ => none
  | .hit t _ => some t

def hitTexts (pieces : List (Segment α)) : List (List Char) := pieces.filterMap Segment.hitText?

@[simp]
theorem hitTexts_cons_hit (t : List Char) (a : α) (pieces : List (Segment α)) :
    hitTexts (.hit t a :: pieces) = t :: hitTexts pieces := rfl

@[simp]
theorem hitTexts_pushPlain (c : Char) (pieces : List (Segment α)) :
    hitTexts (pushPlain c pieces) = hitTexts pieces := by
  unfold pushPlain
  split <;> rfl

theorem mem_hitTexts {t : List Char} {pieces : List (Segment α)} (member : t ∈ hitTexts pieces) :
    ∃ a, .hit t a ∈ pieces := by
  obtain ⟨piece, inside, text⟩ := List.mem_filterMap.mp member
  cases piece with
  | plain t => cases text
  | hit t a =>
    cases text
    exact ⟨a, inside⟩

/-- A change that copies the recognized pieces keeps them in order. -/
theorem standInOrder_hitTexts {changed : Segment α → List Char} (copies : ∀ t a, changed (.hit t a) = t)
    (pieces : List (Segment α)) : StandInOrder (hitTexts pieces) (pieces.flatMap changed) := by
  induction pieces with
  | nil => exact .nil
  | cons piece pieces ih =>
    rw [List.flatMap_cons]
    cases piece with
    | plain t => exact ih.behind _
    | hit t a =>
      rw [copies]
      exact @StandInOrder.cons [] t _ _ ih

def Found.text (cs : List Char) (f : Found α) : List Char := (cs.take f.stop).drop f.start

theorem Found.text_append (front block back : List Char) (a : α) :
    Found.text (front ++ (block ++ back)) ⟨front.length, front.length + block.length, a⟩ = block := by
  simp [Found.text, List.take_append]

theorem map_text_foundFrom (front : List Char) (pieces : List (Segment α)) :
    (foundFrom front.length pieces).map (Found.text (front ++ pieces.flatMap Segment.text)) = hitTexts pieces := by
  induction pieces generalizing front with
  | nil => rfl
  | cons piece pieces ih =>
    have later := ih (front ++ piece.text)
    rw [List.append_assoc, List.length_append] at later
    cases piece with
    | plain t => exact later
    | hit t a =>
      rw [foundFrom, List.map_cons, hitTexts_cons_hit, List.flatMap_cons]
      exact congrArg₂ _ (Found.text_append front t _ a) later

/-- The texts at the places where a rule finds something are what it recognizes. -/
theorem map_text_found (rule : Rule α) (cs : List Char) :
    (found rule cs).map (Found.text cs) = hitTexts (segments rule cs) := by
  have texts := map_text_foundFrom [] (segments rule cs)
  rwa [List.nil_append, flatMap_text_segments] at texts

/-! ## Changed pieces -/

/-- The places of the pieces that are not written as they stand, where the first piece starts at `n`. -/
def changesFrom (n : Nat) : List (List Char × List Char) → List (Nat × Nat)
  | [] => []
  | (old, new) :: edits =>
    (if old = new then [] else [(n, n + old.length)]) ++ changesFrom (n + old.length) edits

section Changes

variable {n : Nat} {edits : List (List Char × List Char)}

theorem changesFrom_append (n : Nat) (front back : List (List Char × List Char)) :
    changesFrom n (front ++ back) =
      changesFrom n front ++ changesFrom (n + (front.flatMap Prod.fst).length) back := by
  induction front generalizing n with
  | nil => rfl
  | cons edit front ih =>
    rw [List.cons_append, changesFrom, changesFrom, ih, List.append_assoc, List.flatMap_cons, List.length_append,
      Nat.add_assoc]

theorem changesFrom_within {c : Nat × Nat} (member : c ∈ changesFrom n edits) :
    n ≤ c.1 ∧ c.2 ≤ n + (edits.flatMap Prod.fst).length := by
  induction edits generalizing n with
  | nil => cases member
  | cons edit edits ih =>
    rw [List.flatMap_cons, List.length_append]
    rcases List.mem_append.mp member with here | later
    · split at here
      · cases here
      · obtain rfl := List.mem_singleton.mp here
        exact ⟨Nat.le_refl _, by omega⟩
    · have places := ih later
      omega

theorem changesFrom_lt (solid : ∀ edit ∈ edits, edit.1 ≠ []) {c : Nat × Nat} (member : c ∈ changesFrom n edits) :
    c.1 < c.2 := by
  induction edits generalizing n with
  | nil => cases member
  | cons edit edits ih =>
    rcases List.mem_append.mp member with here | later
    · split at here
      · cases here
      · obtain rfl := List.mem_singleton.mp here
        have positive := List.length_pos_of_ne_nil (solid edit List.mem_cons_self)
        dsimp only
        omega
    · exact ih (fun edit inside => solid edit (.tail _ inside)) later

theorem written_of_unchanged (unchanged : changesFrom n edits = []) :
    edits.flatMap Prod.snd = edits.flatMap Prod.fst := by
  induction edits generalizing n with
  | nil => rfl
  | cons edit edits ih =>
    obtain ⟨here, later⟩ := List.append_eq_nil_iff.mp unchanged
    have same : edit.1 = edit.2 := by simpa using here
    rw [List.flatMap_cons, List.flatMap_cons, ih later, same]

/-- The pieces can be divided at every place that lies in no changed piece. -/
theorem exists_division {front back : List Char} (whole : edits.flatMap Prod.fst = front ++ back)
    (free : ∀ c ∈ changesFrom n edits, n + front.length ≤ c.1 ∨ c.2 ≤ n + front.length) :
    ∃ left right, left.flatMap Prod.fst = front ∧ right.flatMap Prod.fst = back ∧
      edits.flatMap Prod.snd = left.flatMap Prod.snd ++ right.flatMap Prod.snd ∧
      changesFrom n edits = changesFrom n (left ++ right) := by
  induction edits generalizing n front with
  | nil =>
    obtain ⟨rfl, rfl⟩ := List.append_eq_nil_iff.mp whole.symm
    exact ⟨[], [], rfl, rfl, rfl, rfl⟩
  | cons edit edits ih =>
    obtain ⟨old, new⟩ := edit
    rw [List.flatMap_cons] at whole
    rcases List.append_eq_append_iff.mp whole with ⟨front', rfl, whole'⟩ | ⟨cut, rfl, rfl⟩
    · have place : n + (old ++ front').length = n + old.length + front'.length := by
        rw [List.length_append, Nat.add_assoc]
      rw [place] at free
      obtain ⟨left, right, rfl, rfl, written, changes⟩ :=
        ih whole' fun c member => free c (List.mem_append_right _ member)
      exact ⟨(old, new) :: left, right, rfl, rfl, by simp [written],
        by rw [changesFrom, changes, List.cons_append, changesFrom]⟩
    · by_cases same : front ++ cut = new
      · subst same
        exact ⟨[(front, front)], (cut, cut) :: edits, by simp, rfl, by simp,
          by simp [changesFrom, Nat.add_assoc]⟩
      · -- the piece is changed, so the place is one of its ends
        have ends := free (n, n + (front ++ cut).length) (by simp [changesFrom, same])
        rw [List.length_append] at ends
        by_cases start : front.length = 0
        · obtain rfl := List.length_eq_zero_iff.mp start
          exact ⟨[], (cut, new) :: edits, rfl, rfl, rfl, rfl⟩
        · obtain rfl : cut = [] := List.length_eq_zero_iff.mp (by dsimp only at ends; omega)
          exact ⟨[(front, new)], edits, by simp, rfl, by simp, by simp⟩

/-- Divided pieces keep what lies between two places and is apart from all changed pieces. -/
theorem exists_kept_division {gap block rest : List Char}
    (whole : edits.flatMap Prod.fst = gap ++ (block ++ rest))
    (nonempty : ∀ c ∈ changesFrom n edits, c.1 < c.2)
    (apart : ∀ c ∈ changesFrom n edits, n + gap.length + block.length ≤ c.1 ∨ c.2 ≤ n + gap.length) :
    ∃ front later, later.flatMap Prod.fst = rest ∧
      edits.flatMap Prod.snd = front ++ (block ++ later.flatMap Prod.snd) ∧
      changesFrom (n + gap.length + block.length) later ⊆ changesFrom n edits := by
  obtain ⟨left, right, rfl, behind, written, changes⟩ := exists_division whole fun c member => by
    have places := apart c member
    omega
  rw [changesFrom_append] at changes
  obtain ⟨kept, later, rfl, rfl, written', changes'⟩ := exists_division behind fun c member => by
    have places := apart c (by rw [changes]; exact List.mem_append_right _ member)
    omega
  rw [changes', changesFrom_append] at changes
  have unchanged : changesFrom (n + (left.flatMap Prod.fst).length) kept = [] := by
    refine List.eq_nil_iff_forall_not_mem.mpr fun c member => ?_
    have inside : c ∈ changesFrom n edits := by
      rw [changes]
      exact List.mem_append_right _ (List.mem_append_left _ member)
    have places := changesFrom_within member
    have strict := nonempty c inside
    have outside := apart c inside
    omega
  refine ⟨left.flatMap Prod.snd, later, rfl, ?_, ?_⟩
  · rw [written, written', written_of_unchanged unchanged]
  · intro c member
    rw [changes]
    exact List.mem_append_right _ (List.mem_append_right _ member)

/-- The recognized pieces that are apart from all changed pieces stand in the new text in their order. -/
theorem standInOrder_of_apart (apart : Found α → Bool) (front gap : List Char) {pieces : List (Segment α)}
    (whole : edits.flatMap Prod.fst = gap ++ pieces.flatMap Segment.text)
    (nonempty : ∀ c ∈ changesFrom front.length edits, c.1 < c.2)
    (outside : ∀ f, apart f = true → ∀ c ∈ changesFrom front.length edits, f.stop ≤ c.1 ∨ c.2 ≤ f.start) :
    StandInOrder (((foundFrom (front ++ gap).length pieces).filter apart).map
        (Found.text (front ++ edits.flatMap Prod.fst)))
      (edits.flatMap Prod.snd) := by
  induction pieces generalizing front gap edits with
  | nil => exact .nil
  | cons piece pieces ih =>
    have whole' : edits.flatMap Prod.fst = gap ++ (piece.text ++ pieces.flatMap Segment.text) := whole
    -- a piece that is not asked for joins the gap in front of the next one
    have passed := ih front (gap ++ piece.text) (by rw [whole', List.append_assoc]) nonempty outside
    rw [← List.append_assoc, List.length_append] at passed
    cases piece with
    | plain t => exact passed
    | hit t a =>
      rw [foundFrom, List.filter_cons]
      split
      · rename_i isApart
        have places := outside _ isApart
        simp only [List.length_append] at places
        obtain ⟨start, later, behind, written, changes⟩ := exists_kept_division whole' nonempty places
        have place : (front ++ (gap ++ t)).length = front.length + gap.length + t.length := by simp [Nat.add_assoc]
        have kept := ih (front ++ (gap ++ t)) [] behind
          (fun c member => nonempty c (changes (place ▸ member)))
          fun f isApart c member => outside f isApart c (changes (place ▸ member))
        have text : front ++ edits.flatMap Prod.fst = front ++ (gap ++ t) ++ later.flatMap Prod.fst := by
          rw [whole', behind, Segment.text]
          simp
        have here : Found.text (front ++ edits.flatMap Prod.fst)
            ⟨(front ++ gap).length, (front ++ gap).length + t.length, a⟩ = t := by
          rw [whole', ← List.append_assoc]
          exact Found.text_append _ t _ a
        rw [List.append_nil, ← text, place, ← List.length_append] at kept
        rw [written, List.map_cons, here]
        exact .cons kept
      · exact passed

end Changes

end Recast.Text
