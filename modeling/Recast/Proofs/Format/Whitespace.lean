import Mathlib.Data.List.DropRight
import Recast.Format
import Recast.Proofs.Text.Lines

/-!
# Tidied text

Tidying drops blank lines that are too many in a row and empty lines at both ends, and it may trim lines
and add a line feed. `Settled` says what lines look like when nothing of this is left to do. One pass
delivers such lines, and a pass over them delivers them again: the line feed that was added comes back as
an empty last line, which is dropped with the others at the end or as one too many.
-/

set_option autoImplicit false

namespace Recast.Format

open Recast.Text

/-! ## Blank lines in a row -/

/-- No more than `limit` blank lines follow each other, where `seen` of them stand in front. -/
def BlanksWithin (limit : Int) : (seen : Int) → List (List Char) → Prop
  | _, [] => True
  | seen, line :: rest =>
    if isBlankLine line then seen + 1 ≤ limit ∧ BlanksWithin limit (seen + 1) rest
    else BlanksWithin limit 0 rest

section Rows

variable {limit seen : Int} {line : List Char} {lines rest : List (List Char)}

theorem blanksWithin_cons_of_blank (blank : isBlankLine line = true) :
    BlanksWithin limit seen (line :: rest) ↔ seen + 1 ≤ limit ∧ BlanksWithin limit (seen + 1) rest := by
  rw [BlanksWithin, if_pos blank]

theorem blanksWithin_cons_of_shown (shown : isBlankLine line = false) :
    BlanksWithin limit seen (line :: rest) ↔ BlanksWithin limit 0 rest := by
  rw [BlanksWithin, if_neg (by simp [shown])]

theorem BlanksWithin.mono {fewer : Int} (within : BlanksWithin limit seen lines) (le : fewer ≤ seen) :
    BlanksWithin limit fewer lines := by
  induction lines generalizing seen fewer with
  | nil => trivial
  | cons line rest ih =>
    cases blank : isBlankLine line with
    | true =>
      rw [blanksWithin_cons_of_blank blank] at within ⊢
      exact ⟨by omega, ih within.2 (by omega)⟩
    | false =>
      rw [blanksWithin_cons_of_shown blank] at within ⊢
      exact within

theorem BlanksWithin.tail_of_blank (within : BlanksWithin limit seen (line :: rest))
    (blank : isBlankLine line = true) : BlanksWithin limit seen rest :=
  ((blanksWithin_cons_of_blank blank).mp within).2.mono (by omega)

theorem BlanksWithin.of_append {back : List (List Char)} (within : BlanksWithin limit seen (lines ++ back)) :
    BlanksWithin limit seen lines := by
  induction lines generalizing seen with
  | nil => trivial
  | cons line rest ih =>
    rw [List.cons_append] at within
    cases blank : isBlankLine line with
    | true =>
      rw [blanksWithin_cons_of_blank blank] at within ⊢
      exact ⟨within.1, ih within.2⟩
    | false =>
      rw [blanksWithin_cons_of_shown blank] at within ⊢
      exact ih within

theorem BlanksWithin.behind {front : List (List Char)}
    (within : BlanksWithin limit seen (front ++ line :: rest)) (shown : isBlankLine line = false) :
    BlanksWithin limit 0 rest := by
  induction front generalizing seen with
  | nil => exact (blanksWithin_cons_of_shown shown).mp within
  | cons first front ih =>
    rw [List.cons_append] at within
    cases blank : isBlankLine first with
    | true => exact ih ((blanksWithin_cons_of_blank blank).mp within).2
    | false => exact ih ((blanksWithin_cons_of_shown blank).mp within)

theorem BlanksWithin.length_le {gap : List (List Char)} (within : BlanksWithin limit seen (gap ++ rest))
    (blank : ∀ line ∈ gap, isBlankLine line = true) : gap = [] ∨ seen + gap.length ≤ limit := by
  induction gap generalizing seen with
  | nil => exact .inl rfl
  | cons line gap ih =>
    rw [List.cons_append, blanksWithin_cons_of_blank (blank line (by simp))] at within
    rw [List.length_cons]
    rcases ih within.2 fun other member => blank other (by simp [member]) with rfl | le
    · exact .inr (by simpa using within.1)
    · exact .inr (by push_cast; omega)

/-- Once the blank lines in front use up the limit, none is kept, so it does not matter how many there
were beyond. -/
theorem blanksWithin_limitBlankLines (limit seen : Int) (lines : List (List Char)) :
    BlanksWithin limit seen (limitBlankLines limit seen lines) := by
  fun_induction limitBlankLines limit seen lines with
  | case1 => trivial
  | case2 seen line rest blank room ih => exact (blanksWithin_cons_of_blank blank).mpr ⟨room, ih⟩
  | case3 seen line rest blank full ih => exact ih.mono (by omega)
  | case4 seen line rest shown ih => exact (blanksWithin_cons_of_shown (by simpa using shown)).mpr ih

theorem limitBlankLines_sublist (limit seen : Int) (lines : List (List Char)) :
    (limitBlankLines limit seen lines).Sublist lines := by
  fun_induction limitBlankLines limit seen lines with
  | case1 => exact .refl _
  | case2 _ line _ _ _ ih | case4 _ line _ _ ih => exact ih.cons_cons line
  | case3 _ line _ _ _ ih => exact ih.cons line

/-- Lines within the limit are kept, and so is a part of the empty lines behind them. -/
theorem limitBlankLines_append {ends : List (List Char)} (within : BlanksWithin limit seen lines)
    (empty : ∀ line ∈ ends, line = []) :
    ∃ kept, limitBlankLines limit seen (lines ++ ends) = lines ++ kept ∧ ∀ line ∈ kept, line = [] := by
  induction lines generalizing seen with
  | nil =>
    rw [List.nil_append]
    exact ⟨_, rfl, fun line member => empty line ((limitBlankLines_sublist limit seen ends).mem member)⟩
  | cons line rest ih =>
    rw [List.cons_append, limitBlankLines]
    cases blank : isBlankLine line with
    | true =>
      rw [blanksWithin_cons_of_blank blank] at within
      obtain ⟨kept, same, all⟩ := ih within.2
      exact ⟨kept, by rw [if_pos rfl, if_pos within.1, same, List.cons_append], all⟩
    | false =>
      rw [blanksWithin_cons_of_shown blank] at within
      obtain ⟨kept, same, all⟩ := ih within
      exact ⟨kept, by rw [if_neg Bool.false_ne_true, same, List.cons_append], all⟩

theorem filter_limitBlankLines (limit seen : Int) (lines : List (List Char)) :
    (limitBlankLines limit seen lines).filter (!isBlankLine ·) = lines.filter (!isBlankLine ·) := by
  fun_induction limitBlankLines limit seen lines <;> simp_all

end Rows

/-! ## Empty lines at the ends -/

/-- The lines from the first to the last one that is not empty. -/
def inner (lines : List (List Char)) : List (List Char) :=
  (lines.dropWhile List.isEmpty).rdropWhile List.isEmpty

section Inner

variable {lines : List (List Char)}

theorem isInfix_inner (lines : List (List Char)) : inner lines <:+: lines :=
  (List.rdropWhile_prefix _ _).isInfix.trans (List.dropWhile_suffix _).isInfix

theorem inner_append_of_empty {ends : List (List Char)} (empty : ∀ line ∈ ends, line = []) :
    inner (lines ++ ends) = inner lines := by
  have dropped : ∀ line ∈ ends, line.isEmpty = true := fun line member => by rw [empty line member]; rfl
  by_cases all : lines.dropWhile List.isEmpty = []
  · rw [inner, inner, List.dropWhile_append, all, List.dropWhile_eq_nil_iff.mpr dropped]
    rfl
  · rw [inner, inner, List.dropWhile_append, if_neg (by simpa using all), List.rdropWhile, List.reverse_append,
      List.dropWhile_append_of_pos (by simpa using dropped)]
    rfl

theorem inner_inner (lines : List (List Char)) : inner (inner lines) = inner lines := by
  have front : (inner lines).dropWhile List.isEmpty = inner lines :=
    dropWhile_rdropWhile_dropWhile List.isEmpty lines
  rw [inner, front, inner, List.rdropWhile_idempotent]

theorem BlanksWithin.inner {limit seen : Int} (within : BlanksWithin limit seen lines) :
    BlanksWithin limit seen (inner lines) := by
  have front : BlanksWithin limit seen (lines.dropWhile List.isEmpty) := by
    induction lines with
    | nil => exact within
    | cons line rest ih =>
      cases line with
      | nil => exact ih (within.tail_of_blank rfl)
      | cons c line => exact within
  obtain ⟨back, whole⟩ := List.rdropWhile_prefix List.isEmpty (lines.dropWhile List.isEmpty)
  rw [← whole] at front
  exact front.of_append

theorem filter_inner (lines : List (List Char)) :
    (inner lines).filter (!isBlankLine ·) = lines.filter (!isBlankLine ·) := by
  have front (lines : List (List Char)) :
      (lines.dropWhile List.isEmpty).filter (!isBlankLine ·) = lines.filter (!isBlankLine ·) := by
    induction lines with
    | nil => rfl
    | cons line rest ih =>
      cases line with
      | nil => exact ih
      | cons c line => rfl
  rw [inner, List.rdropWhile, List.filter_reverse, front, List.filter_reverse, List.reverse_reverse, front]

theorem dropWhile_joinChars (single : ∀ line ∈ lines, '\n' ∉ line) :
    (joinChars ['\n'] lines).dropWhile (· == '\n') = joinChars ['\n'] (lines.dropWhile List.isEmpty) := by
  induction lines with
  | nil => rfl
  | cons line rest ih =>
    cases line with
    | nil =>
      cases rest with
      | nil => rfl
      | cons next rest => exact ih fun line member => single line (by simp [member])
    | cons c line =>
      have other : (c == '\n') = false := by
        have inside := single (c :: line) (by simp)
        simpa using fun e => inside (by simp [e])
      cases rest <;> simp [joinChars, other]

theorem dropEndWhile_joinChars (single : ∀ line ∈ lines, '\n' ∉ line) :
    dropEndWhile (· == '\n') (joinChars ['\n'] lines) = joinChars ['\n'] (lines.rdropWhile List.isEmpty) := by
  induction lines using List.reverseRecOn with
  | nil => rfl
  | append_singleton lines line ih =>
    have later := ih fun other member => single other (by simp [member])
    rcases List.eq_nil_or_concat line with rfl | ⟨front, c, rfl⟩
    · rw [List.rdropWhile_concat_pos _ _ _ rfl, ← later]
      cases lines with
      | nil => rfl
      | cons first rest =>
        rw [joinChars_concat_of_ne_nil (by simp), List.append_nil]
        exact dropEndWhile_append_singleton_of_pos (by simp) _
    · have other : (c == '\n') = false := by
        have inside := single (front.concat c) (by simp)
        simpa using fun e => inside (by simp [e])
      rw [List.rdropWhile_concat_neg _ _ _ (by simp)]
      cases lines with
      | nil =>
        rw [List.concat_eq_append]
        exact dropEndWhile_append_singleton_of_neg (p := (· == '\n')) other front
      | cons first rest =>
        rw [joinChars_concat_of_ne_nil (by simp), List.concat_eq_append, ← List.append_assoc]
        exact dropEndWhile_append_singleton_of_neg (p := (· == '\n')) other _

/-- Line feeds at the ends of a text are its empty first and last lines. -/
theorem trimWhile_joinChars (single : ∀ line ∈ lines, '\n' ∉ line) :
    trimWhile (· == '\n') (joinChars ['\n'] lines) = joinChars ['\n'] (inner lines) := by
  rw [trimWhile, dropWhile_joinChars single, dropEndWhile_joinChars, inner]
  exact fun line member => single line ((List.dropWhile_suffix _).mem member)

end Inner

/-! ## One pass -/

/-- Lines as a pass leaves them. -/
structure Settled (w : Whitespace) (lines : List (List Char)) : Prop where
  single : ∀ line ∈ lines, '\n' ∉ line
  trimmed : w.trimsLines = true → ∀ line ∈ lines, dropEndWhile isBlank line = line
  within : BlanksWithin w.maxEmptyLines 0 lines
  ended : inner lines = lines

/-- A line, trimmed if lines are. -/
def trimLine (w : Whitespace) (line : List Char) : List Char :=
  if w.trimsLines then dropEndWhile isBlank line else line

/-- The lines that a pass leaves. -/
def tidyLines (w : Whitespace) (lines : List (List Char)) : List (List Char) :=
  inner (limitBlankLines w.maxEmptyLines 0 (lines.map (trimLine w)))

/-- The text of some lines, with the line feed that is added. -/
def textOf (w : Whitespace) (lines : List (List Char)) : List Char :=
  joinChars ['\n'] lines ++ if w.endsWithNewline then ['\n'] else []

section Pass

variable {w : Whitespace} {lines : List (List Char)}

theorem isBlankLine_trimLine (w : Whitespace) (line : List Char) :
    isBlankLine (trimLine w line) = isBlankLine line := by
  rw [trimLine]
  split
  · have parts := List.rdropWhile_append_rtakeWhile (p := isBlank) (l := line)
    have blanks : (line.rtakeWhile isBlank).all isBlank = true :=
      List.all_eq_true.mpr fun c member => List.mem_rtakeWhile_imp member
    conv_rhs => rw [isBlankLine, ← parts, List.all_append, blanks, Bool.and_true]
    rfl
  · rfl

theorem single_trimLine {line : List Char} (single : '\n' ∉ line) : '\n' ∉ trimLine w line := by
  rw [trimLine]
  split
  · exact fun inside => single ((List.rdropWhile_prefix isBlank line).mem inside)
  · exact single

theorem mem_tidyLines {line : List Char} (member : line ∈ tidyLines w lines) :
    ∃ old ∈ lines, trimLine w old = line :=
  List.mem_map.mp ((limitBlankLines_sublist _ _ _).mem ((isInfix_inner _).mem member))

theorem settled_tidyLines (w : Whitespace) (single : ∀ line ∈ lines, '\n' ∉ line) :
    Settled w (tidyLines w lines) where
  single line member := by
    obtain ⟨old, before, rfl⟩ := mem_tidyLines member
    exact single_trimLine (single old before)
  trimmed trims line member := by
    obtain ⟨old, -, rfl⟩ := mem_tidyLines member
    rw [trimLine, if_pos trims]
    exact List.rdropWhile_idempotent isBlank old
  within := (blanksWithin_limitBlankLines _ _ _).inner
  ended := inner_inner _

theorem map_trimLine (w : Whitespace) (lines : List (List Char)) :
    (if w.trimsLines then lines.map (dropEndWhile isBlank) else lines) = lines.map (trimLine w) := by
  by_cases trims : w.trimsLines = true
  · simp [trimLine, trims]
  · have kept : trimLine w = id := funext fun line => by simp [trimLine, trims]
    rw [if_neg trims, kept, List.map_id]

theorem tidy_eq (w : Whitespace) (text : List Char) :
    tidy w text = textOf w (tidyLines w (splitChar '\n' text)) := by
  have single : ∀ line ∈ limitBlankLines w.maxEmptyLines 0 ((splitChar '\n' text).map (trimLine w)),
      '\n' ∉ line := by
    intro line member
    obtain ⟨old, before, rfl⟩ := List.mem_map.mp ((limitBlankLines_sublist _ _ _).mem member)
    exact single_trimLine (not_mem_of_mem_splitChar before)
  simp only [tidy, map_trimLine, trimWhile_joinChars single, textOf, tidyLines]
  cases w.endsWithNewline <;> simp

/-- The lines of a text are those it was made of, and what the added line feed leaves behind them. -/
theorem splitChar_textOf (w : Whitespace) (single : ∀ line ∈ lines, '\n' ∉ line) :
    ∃ ends, splitChar '\n' (textOf w lines) = lines ++ ends ∧ ∀ line ∈ ends, line = [] := by
  have joined : ∃ ends, splitChar '\n' (joinChars ['\n'] lines) = lines ++ ends ∧
      ∀ line ∈ ends, line = [] := by
    by_cases nothing : lines = []
    · exact ⟨[[]], by rw [nothing]; rfl, by simp⟩
    · exact ⟨[], by rw [splitChar_joinChars nothing single, List.append_nil], by simp⟩
  obtain ⟨ends, split, empty⟩ := joined
  cases added : w.endsWithNewline with
  | false => exact ⟨ends, by simpa [textOf, added] using split, empty⟩
  | true =>
    refine ⟨ends ++ [[]], ?_, by simpa [or_imp, forall_and] using empty⟩
    rw [textOf, added, if_pos rfl, splitChar_append_cons, split, List.append_assoc]
    rfl

/-- A pass changes nothing in settled lines and drops all empty lines behind them. -/
theorem Settled.tidyLines_append (settled : Settled w lines) {ends : List (List Char)}
    (empty : ∀ line ∈ ends, line = []) : tidyLines w (lines ++ ends) = lines := by
  -- `id` makes the trimmed lines a map over the same lines
  have kept : ∀ line ∈ lines ++ ends, trimLine w line = id line := by
    intro line member
    rw [trimLine, id]
    split
    · rename_i trims
      rcases List.mem_append.mp member with before | behind
      · exact settled.trimmed trims line before
      · rw [empty line behind]
        rfl
    · rfl
  obtain ⟨rest, limited, none⟩ := limitBlankLines_append settled.within empty
  rw [tidyLines, List.map_congr_left kept, List.map_id, limited, inner_append_of_empty none, settled.ended]

theorem tidy_textOf (settled : Settled w lines) : tidy w (textOf w lines) = textOf w lines := by
  obtain ⟨ends, split, empty⟩ := splitChar_textOf w settled.single
  rw [tidy_eq, split, settled.tidyLines_append empty]

end Pass

/-! ## Two passes -/

/-- The lines of a text that are not blank. -/
def shownLines (text : List Char) : List (List Char) := (splitChar '\n' text).filter (!isBlankLine ·)

/-- Where nothing but blank lines stands between two lines that are not blank, there are at most `limit`. -/
def GapsWithin (limit : Nat) (lines : List (List Char)) : Prop :=
  ∀ front upper gap lower back, lines = front ++ upper :: (gap ++ lower :: back) →
    isBlankLine upper = false → isBlankLine lower = false → (∀ line ∈ gap, isBlankLine line = true) →
    gap.length ≤ limit

section Passes

variable {w : Whitespace} {lines : List (List Char)}

theorem shownLines_textOf (w : Whitespace) (single : ∀ line ∈ lines, '\n' ∉ line) :
    shownLines (textOf w lines) = lines.filter (!isBlankLine ·) := by
  obtain ⟨ends, split, empty⟩ := splitChar_textOf w single
  have blank : ends.filter (!isBlankLine ·) = [] := by
    rw [List.filter_eq_nil_iff]
    intro line member
    rw [empty line member]
    decide
  rw [shownLines, split, List.filter_append, blank, List.append_nil]

theorem filter_tidyLines (w : Whitespace) (lines : List (List Char)) :
    (tidyLines w lines).filter (!isBlankLine ·) = (lines.filter (!isBlankLine ·)).map (trimLine w) := by
  have trimmed : (!isBlankLine ·) ∘ trimLine w = (!isBlankLine ·) := by
    funext line
    rw [Function.comp, isBlankLine_trimLine]
  rw [tidyLines, filter_inner, filter_limitBlankLines, List.filter_map, trimmed]

/-- The empty lines at the end are no gap, so only the lines in front of them count. -/
theorem gapsWithin_of_blanksWithin {limit : Int} {ends : List (List Char)} (within : BlanksWithin limit 0 lines)
    (empty : ∀ line ∈ ends, line = []) : GapsWithin limit.toNat (lines ++ ends) := by
  intro front upper gap lower back split shownUpper shownLower blank
  obtain ⟨rest, whole⟩ : ∃ rest, lines = front ++ upper :: (gap ++ lower :: rest) := by
    have upTo : lines ++ ends = (front ++ upper :: (gap ++ [lower])) ++ back := by simp [split]
    rcases List.append_eq_append_iff.mp upTo with ⟨more, shape, behind⟩ | ⟨more, shape, -⟩
    · -- the lower line would be one of the empty lines, unless it is the last of the others
      rcases List.eq_nil_or_concat more with rfl | ⟨more, last, rfl⟩
      · exact ⟨[], by simpa using shape.symm⟩
      · have lastLines : (front ++ upper :: gap) ++ [lower] = (lines ++ more) ++ [last] := by
          simpa using shape
        have same : lower = last := List.singleton_inj.mp (List.append_inj_right' lastLines rfl)
        have blankLower : lower = [] := empty lower (by rw [behind, same]; simp)
        rw [blankLower] at shownLower
        exact absurd shownLower (by decide)
    · exact ⟨more, by simpa using shape⟩
  rw [whole] at within
  rcases (within.behind shownUpper).length_le blank with rfl | le
  · exact Nat.zero_le _
  · omega

end Passes

/-- Tidying a tidied text changes nothing. Tidying keeps the lines that are not blank, trimmed if lines are
trimmed, and leaves no more blank lines between two of them than it is asked to, none for a negative
number. -/
theorem whitespace_settles (w : Whitespace) (text : String) (target : Target) :
    ∃ tidied, whitespace w text target = .text tidied ∧ whitespace w tidied target = .text tidied ∧
      shownLines tidied.toList = (shownLines text.toList).map (trimLine w) ∧
      GapsWithin w.maxEmptyLines.toNat (splitChar '\n' tidied.toList) := by
  have settled : Settled w (tidyLines w (splitChar '\n' text.toList)) :=
    settled_tidyLines w fun line member => not_mem_of_mem_splitChar member
  refine ⟨_, rfl, ?_, ?_, ?_⟩
  · rw [whitespace, String.toList_ofList, tidy_eq w text.toList, tidy_textOf settled]
  · rw [String.toList_ofList, tidy_eq, shownLines_textOf w settled.single, filter_tidyLines, shownLines]
  · obtain ⟨ends, split, empty⟩ := splitChar_textOf w settled.single
    rw [String.toList_ofList, tidy_eq, split]
    exact gapsWithin_of_blanksWithin settled.within empty

-- a blank line that is kept untrimmed and the line feed that is added count as two blank lines
example :
    whitespace { maxEmptyLines := 1, trimsLines := false } "\n\na\n\n \nb\n  " .vue = .text "a\n\nb\n  \n" := by
  decide

end Recast.Format
