import Mathlib.Data.List.Basic
import Recast.Proofs.Text.Search

/-!
# Splitting and joining

A text that is split at every occurrence of a character and joined by that character again is the same
text, and parts without the character come back from the text that they are joined to.
-/

set_option autoImplicit false

namespace Recast.Text

theorem splitChar_eq_splitOn (sep : Char) (cs : List Char) : splitChar sep cs = cs.splitOn sep := by
  induction cs with
  | nil => rfl
  | cons c cs ih =>
    rw [splitChar, List.splitOn_cons_eq_if_modifyHead, ih]
    by_cases here : c = sep
    · rw [if_pos here, if_pos (by simpa using here)]
    · rw [if_neg here, if_neg (by simpa using here)]
      cases split : cs.splitOn sep with
      | nil => exact absurd split (List.splitOn_ne_nil sep cs)
      | cons part parts => rfl

theorem joinChars_eq_intercalate (sep : List Char) (parts : List (List Char)) :
    joinChars sep parts = sep.intercalate parts := by
  fun_induction joinChars sep parts with
  | case1 => rfl
  | case2 part => simp
  | case3 part parts more ih =>
    obtain ⟨next, rest, rfl⟩ := List.exists_cons_of_ne_nil more
    rw [ih, List.intercalate_cons_cons]

theorem splitChar_ne_nil (sep : Char) (cs : List Char) : splitChar sep cs ≠ [] := by
  rw [splitChar_eq_splitOn]
  exact List.splitOn_ne_nil sep cs

/-- A text splits at each separator for itself. -/
theorem splitChar_append_cons (sep : Char) (front back : List Char) :
    splitChar sep (front ++ sep :: back) = splitChar sep front ++ splitChar sep back := by
  simp only [splitChar_eq_splitOn, List.splitOn_eq_splitOnP]
  exact List.splitOnP_append_cons front back (by simp)

theorem not_mem_of_mem_splitChar {sep : Char} {cs part : List Char} (member : part ∈ splitChar sep cs) :
    sep ∉ part := by
  induction cs generalizing part with
  | nil => simp_all [splitChar]
  | cons c cs ih =>
    rw [splitChar] at member
    split at member
    · rcases List.mem_cons.mp member with rfl | later
      · simp
      · exact ih later
    · rename_i other
      cases split : splitChar sep cs with
      | nil => exact absurd split (splitChar_ne_nil sep cs)
      | cons first parts =>
        rw [split] at ih member
        rcases List.mem_cons.mp member with rfl | later
        · simpa [Ne.symm other] using ih (by simp)
        · exact ih (by simp [later])

theorem splitChar_joinChars {sep : Char} {parts : List (List Char)} (nonempty : parts ≠ [])
    (single : ∀ part ∈ parts, sep ∉ part) : splitChar sep (joinChars [sep] parts) = parts := by
  rw [splitChar_eq_splitOn, joinChars_eq_intercalate]
  exact List.splitOn_intercalate sep single nonempty

theorem joinChars_cons_of_ne_nil {sep : List Char} {parts : List (List Char)} (nonempty : parts ≠ [])
    (part : List Char) : joinChars sep (part :: parts) = part ++ sep ++ joinChars sep parts := by
  obtain ⟨next, rest, rfl⟩ := List.exists_cons_of_ne_nil nonempty
  rfl

/-- Parts that are joined by a character, with another one behind them, are each followed by one. -/
theorem joinChars_append_singleton (sep : Char) {parts : List (List Char)} (nonempty : parts ≠ []) :
    joinChars [sep] parts ++ [sep] = parts.flatMap (· ++ [sep]) := by
  induction parts with
  | nil => exact absurd rfl nonempty
  | cons part parts ih =>
    cases parts with
    | nil => simp [joinChars]
    | cons next parts =>
      have later := ih (List.cons_ne_nil next parts)
      rw [joinChars_cons_of_ne_nil (List.cons_ne_nil next parts), List.append_assoc, later]
      rfl

theorem joinChars_concat_of_ne_nil {sep : List Char} {parts : List (List Char)} (nonempty : parts ≠ [])
    (part : List Char) : joinChars sep (parts ++ [part]) = joinChars sep parts ++ sep ++ part := by
  induction parts with
  | nil => exact absurd rfl nonempty
  | cons first rest ih =>
    cases rest with
    | nil => rfl
    | cons next rest =>
      have inner := ih (List.cons_ne_nil next rest)
      rw [List.cons_append, joinChars_cons_of_ne_nil (by simp), inner,
        joinChars_cons_of_ne_nil (List.cons_ne_nil next rest)]
      simp only [List.append_assoc]

end Recast.Text
