import Recast.Proofs.Text.Character
import Recast.Proofs.Text.Substitution
import Recast.Repair.Markup

/-!
# Progress of the rules for markup

The rules for markup write some things anew and others as they stand. Whatever they write anew is
further along in one order on texts, which compares counts of characters. The order is compatible
with putting texts together, so changes at different places of a text cannot undo each other.
-/

set_option autoImplicit false

namespace Recast.Repair

open Recast.Text

/-! ## The order -/

/-- A small letter that does not occur in the name of a slot. Every void element has one in its name. -/
def isTelling (c : Char) : Bool := c.isLower && !("slot".toList.contains c)

/-- The second text is further along than the first: it has more braces; or else more brackets than
slashes in comparison; or else fewer telling letters; or else more slashes. -/
def Progress (before after : List Char) : Prop :=
  before.count '\x7b' < after.count '\x7b' ∨ before.count '\x7b' = after.count '\x7b' ∧
    (before.count '<' + after.count '/' < after.count '<' + before.count '/' ∨
      before.count '<' + after.count '/' = after.count '<' + before.count '/' ∧
        (after.countP isTelling < before.countP isTelling ∨
          after.countP isTelling = before.countP isTelling ∧ before.count '/' < after.count '/'))

theorem not_progress_self (text : List Char) : ¬ Progress text text := by
  unfold Progress
  omega

theorem Progress.trans {a b c : List Char} (hab : Progress a b) (hbc : Progress b c) :
    Progress a c := by
  unfold Progress at *
  omega

theorem Progress.append {a b a' b' : List Char} (h : Progress a b) (h' : Progress a' b') :
    Progress (a ++ a') (b ++ b') := by
  unfold Progress at *
  simp only [List.count_append, List.countP_append]
  omega

theorem Progress.append_left {a b : List Char} (h : Progress a b) (front : List Char) :
    Progress (front ++ a) (front ++ b) := by
  unfold Progress at *
  simp only [List.count_append, List.countP_append]
  omega

theorem Progress.append_right {a b : List Char} (h : Progress a b) (back : List Char) :
    Progress (a ++ back) (b ++ back) := by
  unfold Progress at *
  simp only [List.count_append, List.countP_append]
  omega

/-- Characters that do not count. -/
theorem counts_of_blank {blanks : List Char} (all : ∀ c ∈ blanks, isBlank c = true) :
    blanks.count '\x7b' = 0 ∧ blanks.count '<' = 0 ∧ blanks.count '/' = 0 ∧
      blanks.countP isTelling = 0 := by
  have absent : ∀ c, isBlank c = false → c ∉ blanks := by
    intro c notBlank member
    rw [all c member] at notBlank
    exact absurd notBlank (by simp)
  refine ⟨List.count_eq_zero.mpr (absent _ (by decide)), List.count_eq_zero.mpr (absent _ (by decide)),
    List.count_eq_zero.mpr (absent _ (by decide)), List.countP_eq_zero.mpr fun c member telling => ?_⟩
  have checked : ∀ n ∈ blankCodes, isTelling (Char.ofNat n) = false := by decide +kernel
  have quiet := checked c.toNat (mem_blankCodes (all c member))
  rw [Char.ofNat_toNat] at quiet
  exact absurd telling (by simp [quiet])

theorem dropEndWhile_append_blanks (text : List Char) :
    ∃ blanks, (∀ c ∈ blanks, isBlank c = true) ∧ text = dropEndWhile isBlank text ++ blanks :=
  ⟨text.rtakeWhile isBlank, fun _ hc => List.mem_rtakeWhile_imp hc,
    List.rdropWhile_append_rtakeWhile.symm⟩

/-! ## Rules that make progress -/

/-- A rule that writes what it recognizes as it stands or makes progress. -/
def Advances (rule : Rule (List Char)) : Prop :=
  ∀ p cs new rest, rule p cs = some (new, rest) →
    ∃ raw, raw ≠ [] ∧ cs = raw ++ rest ∧ (new = raw ∨ Progress raw new)

theorem Advances.consumes {rule : Rule (List Char)} (h : Advances rule) : Consumes rule := by
  intro p cs new rest found
  obtain ⟨raw, nonempty, shape, _⟩ := h p cs new rest found
  exact ⟨raw, nonempty, shape⟩

/-- A rule writes all that it recognizes in a text as it stands. -/
def Keeps (rule : Rule (List Char)) (text : List Char) : Prop :=
  ∀ piece ∈ segments rule text, piece.replaced id = piece.text

/-- A change that leaves the texts with a property alone and makes progress on all others. -/
def Settles (change : List Char → List Char) (settled : List Char → Prop) : Prop :=
  ∀ text, settled text ∧ change text = text ∨ ¬ settled text ∧ Progress text (change text)

theorem Settles.eq_self_iff {change : List Char → List Char} {settled : List Char → Prop}
    (h : Settles change settled) (text : List Char) : change text = text ↔ settled text := by
  rcases h text with ⟨isSettled, same⟩ | ⟨notSettled, progress⟩
  · exact ⟨fun _ => isSettled, fun _ => same⟩
  · refine ⟨fun same => ?_, fun isSettled => absurd isSettled notSettled⟩
    rw [same] at progress
    exact absurd progress (not_progress_self text)

theorem Settles.comp {f g : List Char → List Char} {P Q : List Char → Prop} (hf : Settles f P)
    (hg : Settles g Q) : Settles (fun text => g (f text)) (fun text => P text ∧ Q text) := by
  intro text
  change (P text ∧ Q text) ∧ g (f text) = text ∨ ¬ (P text ∧ Q text) ∧ Progress text (g (f text))
  rcases hf text with ⟨isP, same⟩ | ⟨notP, progress⟩
  · rcases hg text with ⟨isQ, same'⟩ | ⟨notQ, progress⟩
    · exact .inl ⟨⟨isP, isQ⟩, by rw [same, same']⟩
    · exact .inr ⟨fun both => notQ both.2, by rwa [same]⟩
  · refine .inr ⟨fun both => notP both.1, ?_⟩
    rcases hg (f text) with ⟨_, same'⟩ | ⟨_, more⟩
    · rwa [same']
    · exact progress.trans more

/-- Pieces that are each kept or further along make up a text that is kept or further along. -/
theorem settles_pieces {α : Type} (pieces : List α) (old new : α → List Char)
    (each : ∀ a ∈ pieces, new a = old a ∨ Progress (old a) (new a)) :
    (∀ a ∈ pieces, new a = old a) ∧ pieces.flatMap new = pieces.flatMap old ∨
      ¬ (∀ a ∈ pieces, new a = old a) ∧ Progress (pieces.flatMap old) (pieces.flatMap new) := by
  induction pieces with
  | nil => exact .inl ⟨by simp, rfl⟩
  | cons a pieces ih =>
    simp only [List.flatMap_cons, List.forall_mem_cons]
    rcases each a (by simp) with same | progress
    · rcases ih fun b hb => each b (by simp [hb]) with ⟨all, whole⟩ | ⟨other, whole⟩
      · exact .inl ⟨⟨same, all⟩, by rw [same, whole]⟩
      · exact .inr ⟨fun both => other both.2, by rw [same]; exact whole.append_left _⟩
    · have changed : new a ≠ old a := fun same => not_progress_self _ (same ▸ progress)
      refine .inr ⟨fun both => changed both.1, ?_⟩
      rcases ih fun b hb => each b (by simp [hb]) with ⟨_, whole⟩ | ⟨_, whole⟩
      · rw [whole]
        exact progress.append_right _
      · exact progress.append whole

/-- Substitution by a rule that makes progress changes the texts that the rule does not keep. -/
theorem Advances.settles {rule : Rule (List Char)} (h : Advances rule) :
    Settles (substitute rule) (Keeps rule) := by
  intro text
  have each : ∀ piece ∈ segments rule text, Segment.replaced id piece = Segment.text piece ∨
      Progress (Segment.text piece) (Segment.replaced id piece) := by
    intro piece member
    cases piece with
    | plain t => exact .inl rfl
    | hit raw new =>
      obtain ⟨_, q, rest, found⟩ := rule_of_hit_mem h.consumes member
      obtain ⟨raw', _, shape, step⟩ := h q _ new rest found
      rw [List.append_cancel_right_eq] at shape
      rwa [← shape] at step
  have whole := settles_pieces (segments rule text) Segment.text (Segment.replaced id) each
  rwa [flatMap_text_segments] at whole

/-- A rule that writes everything anew keeps the texts in which it recognizes nothing. -/
theorem Advances.keeps_iff {rule : Rule (List Char)} (h : Advances rule)
    (changes : ∀ p raw rest, raw ≠ [] → rule p (raw ++ rest) ≠ some (raw, rest)) (text : List Char) :
    Keeps rule text ↔ recognizes rule text = false := by
  rw [recognizes_eq_false_iff_hit]
  constructor
  · intro keeps raw new member
    obtain ⟨nonempty, q, rest, found⟩ := rule_of_hit_mem h.consumes member
    have same : new = raw := keeps _ member
    rw [same] at found
    exact changes q raw rest nonempty found
  · intro none piece member
    cases piece with
    | plain t => rfl
    | hit raw new => exact absurd member (none raw new)

/-! ## Each rule -/

/-- What is left of a text that was read from its start is what the rest does not hold. -/
theorem take_length_sub (raw rest : List Char) :
    (raw ++ rest).take ((raw ++ rest).length - rest.length) = raw := by
  rw [List.length_append, Nat.add_sub_cancel, List.take_left' rfl]

theorem voidClosing_eq_some {p : Option Char} {cs new rest : List Char}
    (h : voidClosing p cs = some (new, rest)) :
    new = [] ∧ ∃ tag ∈ Markup.voidTags, ∃ blanks, (∀ c ∈ blanks, isBlank c = true) ∧
      cs = ("</".toList ++ (tag.toList ++ (blanks ++ ['>']))) ++ rest := by
  simp only [voidClosing, Option.bind_eq_bind, Option.bind_eq_some_iff, Option.pure_def,
    Option.some.injEq, Prod.mk.injEq] at h
  obtain ⟨inside, front, rest', found, empty, rfl⟩ := h
  obtain ⟨tag, isVoid, name⟩ := List.exists_of_findSome?_eq_some found
  obtain ⟨behind, named, bracket⟩ := Option.bind_eq_some_iff.mp name
  obtain ⟨blanks, all, shape⟩ := afterWord?_eq_some bracket
  refine ⟨empty.symm, tag, isVoid, blanks, all, ?_⟩
  rw [after?_eq_some_iff.mp front, after?_eq_some_iff.mp named, shape]
  simp

theorem voidClosing_advances : Advances voidClosing := by
  intro p cs new rest found
  obtain ⟨rfl, tag, isVoid, blanks, all, shape⟩ := voidClosing_eq_some found
  refine ⟨_, by simp, shape, .inr ?_⟩
  have name : ∀ tag ∈ Markup.voidTags, tag.toList.count '\x7b' = 0 ∧ tag.toList.count '<' = 0 ∧
      tag.toList.count '/' = 0 ∧ 0 < tag.toList.countP isTelling := by decide +kernel
  have inName := name tag isVoid
  have inBlanks := counts_of_blank all
  have opens : "</".toList.count '\x7b' = 0 ∧ "</".toList.count '<' = 1 ∧ "</".toList.count '/' = 1 := by
    decide
  unfold Progress
  simp only [List.count_append, List.countP_append, List.count_nil, List.countP_nil]
  have closes : ['>'].count '\x7b' = 0 ∧ ['>'].count '<' = 0 ∧ ['>'].count '/' = 0 := by decide
  omega

theorem bracedRest?_eq_some {isInner : Bool} {cs value rest : List Char}
    (h : bracedRest? isInner cs = some (value, rest)) : cs = value ++ rest := by
  fun_induction bracedRest? isInner cs generalizing value with
  | case1 => simp at h
  | case2 => simp at h
  | case3 isInner cs _ ih | case4 cs _ ih | case6 isInner c cs _ _ ih =>
    obtain ⟨⟨value', rest'⟩, inside, shape⟩ := Option.map_eq_some_iff.mp h
    simp only [Prod.mk.injEq] at shape
    obtain ⟨rfl, rfl⟩ := shape
    rw [ih inside, List.cons_append]
  | case5 isInner cs _ =>
    simp only [Option.some.injEq, Prod.mk.injEq] at h
    obtain ⟨rfl, rfl⟩ := h
    rfl

theorem attributeItem?_eq_some {cs item rest : List Char}
    (h : attributeItem? cs = some (item, rest)) : cs = item ++ rest := by
  cases cs with
  | nil => simp [attributeItem?] at h
  | cons c cs =>
    simp only [attributeItem?] at h
    split at h
    · simp at h
    · split at h
      · obtain ⟨⟨inside, behind⟩, found, shape⟩ := Option.map_eq_some_iff.mp h
        simp only [Prod.mk.injEq] at shape
        obtain ⟨rfl, rfl⟩ := shape
        rw [cut?_eq_some found]
        simp
      · split at h
        · obtain ⟨⟨inside, behind⟩, found, shape⟩ := Option.map_eq_some_iff.mp h
          simp only [Prod.mk.injEq] at shape
          obtain ⟨rfl, rfl⟩ := shape
          rw [bracedRest?_eq_some found, List.cons_append]
        · simp only [Option.some.injEq, Prod.mk.injEq] at h
          obtain ⟨rfl, rfl⟩ := h
          rfl

theorem attributeItemsUpTo_append (n : Nat) (cs : List Char) :
    (attributeItemsUpTo n cs).1.flatten ++ (attributeItemsUpTo n cs).2 = cs := by
  induction n generalizing cs with
  | zero => simp [attributeItemsUpTo]
  | succ n ih =>
    simp only [attributeItemsUpTo]
    cases found : attributeItem? cs with
    | none => simp
    | some hit =>
      obtain ⟨item, rest⟩ := hit
      simp only [List.flatten_cons, List.append_assoc, ih]
      exact (attributeItem?_eq_some found).symm

theorem attributeItems_append (cs : List Char) :
    (attributeItems cs).1.flatten ++ (attributeItems cs).2 = cs :=
  attributeItemsUpTo_append cs.length cs

/-- A character of the name of a native element. -/
def isTagChar (c : Char) : Bool := c.isLower || c.isDigit

theorem nativeName?_eq_some {cs tag rest : List Char} (h : nativeName? cs = some (tag, rest)) :
    (∀ c ∈ tag, isTagChar c = true) ∧ cs = '<' :: tag ++ rest := by
  simp only [nativeName?, Option.bind_eq_bind, Option.bind_eq_some_iff, Option.pure_def,
    Option.some.injEq, Prod.mk.injEq] at h
  obtain ⟨inside, front, _, _, rfl, rfl⟩ := h
  refine ⟨fun c hc => List.mem_takeWhile_imp hc, ?_⟩
  rw [after?_eq_some_iff.mp front, List.cons_append, List.cons_append,
    List.takeWhile_append_dropWhile, List.nil_append]

/-- A list that ends with a slash on its own. -/
theorem flatten_of_getLast? {items : List (List Char)} {last : List Char}
    (h : items.getLast? = some last) : items.flatten = items.dropLast.flatten ++ last := by
  conv_lhs => rw [← List.dropLast_append_getLast? last h, List.flatten_append]
  simp

theorem selfClosing_eq_some {p : Option Char} {cs new rest : List Char}
    (h : selfClosing p cs = some (new, rest)) :
    ∃ tag attributes, (∀ c ∈ tag, isTagChar c = true) ∧
      cs = ('<' :: tag ++ attributes ++ "/>".toList) ++ rest ∧
      (new = '<' :: tag ++ attributes ++ "/>".toList ∨
        new = '<' :: tag ++ dropEndWhile isBlank attributes ++ "></".toList ++ tag ++ ['>']) := by
  simp only [selfClosing, Option.bind_eq_bind, Option.bind_eq_some_iff] at h
  obtain ⟨⟨tag, behind⟩, named, h⟩ := h
  obtain ⟨chars, shape⟩ := nativeName?_eq_some named
  obtain ⟨attributes, rest', split, result⟩ : ∃ attributes rest',
      behind = attributes ++ ("/>".toList ++ rest') ∧
      (if Markup.voidTags.contains (String.ofList tag) || String.ofList tag == "slot" then
        pure (cs.take (cs.length - rest'.length), rest')
      else pure ('<' :: tag ++ dropEndWhile isBlank attributes ++ "></".toList ++ tag ++ ['>'], rest')) =
        some (new, rest) := by
    cases behind with
    | nil => simp at h
    | cons c more =>
      simp only at h
      split at h
      · split at h
        · rename_i ends
          refine ⟨_, _, ?_, h⟩
          obtain ⟨back, bracket⟩ : ∃ back, (attributeItems more).2 = '>' :: back := by
            cases items : (attributeItems more).2 with
            | nil => simp [items] at ends
            | cons d back => exact ⟨back, by simpa [items] using ends.2⟩
          have whole := attributeItems_append more
          rw [flatten_of_getLast? ends.1, bracket] at whole
          rw [bracket]
          conv_lhs => rw [← whole]
          simp
        · simp at h
      · obtain ⟨⟨_, rest'⟩, inside, result⟩ := Option.bind_eq_some_iff.mp h
        obtain ⟨_, slash, shape'⟩ := Option.map_eq_some_iff.mp inside
        simp only [Prod.mk.injEq] at shape'
        obtain ⟨rfl, rfl⟩ := shape'
        have closed : c :: more = "/>".toList ++ _ := after?_eq_some_iff.mp slash
        exact ⟨[], _, closed, result⟩
  have whole : cs = ('<' :: tag ++ attributes ++ "/>".toList) ++ rest' := by
    rw [shape, split]
    simp
  split at result
  · simp only [Option.pure_def, Option.some.injEq, Prod.mk.injEq] at result
    obtain ⟨rfl, rfl⟩ := result
    refine ⟨tag, attributes, chars, whole, .inl ?_⟩
    rw [whole, take_length_sub]
  · simp only [Option.pure_def, Option.some.injEq, Prod.mk.injEq] at result
    obtain ⟨rfl, rfl⟩ := result
    exact ⟨tag, attributes, chars, whole, .inr rfl⟩

theorem counts_of_isTagChar {tag : List Char} (chars : ∀ c ∈ tag, isTagChar c = true) :
    tag.count '\x7b' = 0 ∧ tag.count '<' = 0 ∧ tag.count '/' = 0 := by
  have absent : ∀ c, isTagChar c = false → c ∉ tag := by
    intro c other member
    rw [chars c member] at other
    exact absurd other (by simp)
  exact ⟨List.count_eq_zero.mpr (absent _ (by decide)), List.count_eq_zero.mpr (absent _ (by decide)),
    List.count_eq_zero.mpr (absent _ (by decide))⟩

theorem selfClosing_advances : Advances selfClosing := by
  intro p cs new rest found
  obtain ⟨tag, attributes, chars, shape, result⟩ := selfClosing_eq_some found
  refine ⟨_, by simp, shape, ?_⟩
  rcases result with rfl | rfl
  · exact .inl rfl
  · right
    obtain ⟨blanks, all, split⟩ := dropEndWhile_append_blanks attributes
    have ending : Progress (blanks ++ "/>".toList) ("></".toList ++ (tag ++ ['>'])) := by
      have inTag := counts_of_isTagChar chars
      have inBlanks := counts_of_blank all
      have before : "/>".toList.count '\x7b' = 0 ∧ "/>".toList.count '<' = 0 ∧
          "/>".toList.count '/' = 1 := by decide
      have after : "></".toList.count '\x7b' = 0 ∧ "></".toList.count '<' = 1 ∧
          "></".toList.count '/' = 1 ∧ ['>'].count '\x7b' = 0 ∧ ['>'].count '<' = 0 ∧
          ['>'].count '/' = 0 := by decide
      unfold Progress
      simp only [List.count_append]
      omega
    have whole := ending.append_left ('<' :: tag ++ dropEndWhile isBlank attributes)
    rw [← List.append_assoc, List.append_assoc ('<' :: tag), ← split] at whole
    simpa using whole

/-! ## Empty elements -/

theorem tagAttributes?_eq_some {cs attributes rest : List Char}
    (h : tagAttributes? cs = some (attributes, rest)) : cs = attributes ++ '>' :: rest := by
  cases cs with
  | nil => simp [tagAttributes?] at h
  | cons c cs =>
    simp only [tagAttributes?] at h
    split at h
    · rename_i bracket
      simp only [Option.some.injEq, Prod.mk.injEq] at h
      obtain ⟨rfl, rfl⟩ := h
      rw [bracket, List.nil_append]
    · split at h
      · obtain ⟨behind, found, shape⟩ := Option.map_eq_some_iff.mp h
        simp only [Prod.mk.injEq] at shape
        obtain ⟨rfl, rfl⟩ := shape
        have whole := attributeItems_append cs
        rw [after?_eq_some_iff.mp found] at whole
        conv_lhs => rw [← whole]
        simp
      · simp at h

/-- An empty element, with the blanks that stand between its tags. -/
def emptyText (tag attributes blanks : List Char) : List Char :=
  '<' :: tag ++ attributes ++ '>' :: blanks ++ "</".toList ++ tag ++ ['>']

theorem emptyElement_eq_some {filling : List Char} {p : Option Char} {cs new rest : List Char}
    (h : emptyElement filling p cs = some (new, rest)) :
    ∃ tag attributes blanks, (∀ c ∈ blanks, isBlank c = true) ∧
      cs = emptyText tag attributes blanks ++ rest ∧
      (new = emptyText tag attributes blanks ∨ new = emptyText tag attributes filling) := by
  simp only [emptyElement, Option.bind_eq_bind, Option.bind_eq_some_iff] at h
  obtain ⟨inside, front, found⟩ := h
  obtain ⟨tag, _, found⟩ := List.exists_of_findSome?_eq_some found
  simp only [Option.bind_eq_some_iff] at found
  obtain ⟨behind, named, ⟨attributes, back⟩, opened, rest', closed, result⟩ := found
  refine ⟨tag.toList, attributes, back.takeWhile isBlank, fun c hc => List.mem_takeWhile_imp hc, ?_⟩
  have whole : cs = emptyText tag.toList attributes (back.takeWhile isBlank) ++ rest' := by
    have content : back = back.takeWhile isBlank ++ ("</".toList ++ tag.toList ++ ['>'] ++ rest') := by
      rw [← after?_eq_some_iff.mp closed, List.takeWhile_append_dropWhile]
    rw [after?_eq_some_iff.mp front, after?_eq_some_iff.mp named, tagAttributes?_eq_some opened]
    conv_lhs => rw [content]
    simp [emptyText]
  split at result
  · simp only [Option.pure_def, Option.some.injEq, Prod.mk.injEq] at result
    obtain ⟨rfl, rfl⟩ := result
    exact ⟨whole, .inr (by simp [emptyText])⟩
  · simp only [Option.pure_def, Option.some.injEq, Prod.mk.injEq] at result
    obtain ⟨rfl, rfl⟩ := result
    refine ⟨whole, .inl ?_⟩
    rw [whole, take_length_sub]

/-- Content in place of blanks is progress, if it adds a brace, or slashes that belong to brackets. -/
theorem emptyElement_advances (target : Target) (runes : Bool) :
    Advances (emptyElement (placeholder target runes)) := by
  intro p cs new rest found
  obtain ⟨tag, attributes, blanks, all, shape, result⟩ := emptyElement_eq_some found
  refine ⟨_, by simp [emptyText], shape, ?_⟩
  rcases result with rfl | rfl
  · exact .inl rfl
  · right
    have inBlanks := counts_of_blank all
    have filling : Progress blanks (placeholder target runes) := by
      unfold Progress
      rw [placeholder]
      split
      · have brace : ("\x7b@render children?.()\x7d".toList).count '\x7b' = 1 := by decide
        omega
      · have slot : ("<slot />".toList).count '\x7b' = 0 ∧ ("<slot />".toList).count '<' = 1 ∧
          ("<slot />".toList).count '/' = 1 ∧ ("<slot />".toList).countP isTelling = 0 := by decide
        omega
    have framed := ((filling.append_left ('<' :: tag ++ attributes ++ ['>'])).append_right
      ("</".toList ++ tag ++ ['>']))
    simpa [emptyText] using framed

/-! ## Class attributes -/

theorem classNameAttribute_eq_some {p : Option Char} {cs new rest : List Char}
    (h : classNameAttribute p cs = some (new, rest)) :
    new = "class=".toList ∧ cs = "className=".toList ++ rest := by
  simp only [classNameAttribute, Option.bind_eq_bind, Option.bind_eq_some_iff, Option.pure_def,
    Option.some.injEq, Prod.mk.injEq] at h
  obtain ⟨_, _, rest', found, _, _, rfl, rfl⟩ := h
  exact ⟨rfl, after?_eq_some_iff.mp found⟩

theorem classNameAttribute_advances : Advances classNameAttribute := by
  intro p cs new rest found
  obtain ⟨rfl, shape⟩ := classNameAttribute_eq_some found
  exact ⟨_, by decide, shape, .inr (by unfold Progress; decide)⟩

end Recast.Repair
