import Recast.Text.Blank
import Recast.Text.Word

/-!
# Facts about character classes

Blanks are never part of a word. There are few of them, so this is checked one by one.
-/

set_option autoImplicit false

namespace Recast.Text

/-- The code points of blanks. -/
def blankCodes : List Nat :=
  [9, 10, 11, 12, 13, 28, 29, 30, 31, 32, 133, 160, 5760, 8192, 8193, 8194, 8195, 8196, 8197, 8198,
    8199, 8200, 8201, 8202, 8232, 8233, 8239, 8287, 12288]

theorem mem_of_inRanges {ranges : List (Nat × Nat)} {n : Nat} (h : inRanges ranges n = true) :
    n ∈ ranges.flatMap fun range => List.range' range.1 (range.2 + 1 - range.1) := by
  obtain ⟨range, listed, within⟩ := List.any_eq_true.mp h
  have bounds : range.1 ≤ n ∧ n ≤ range.2 := by simpa using within
  exact List.mem_flatMap.mpr ⟨range, listed, List.mem_range'_1.mpr (by omega)⟩

theorem mem_blankCodes {c : Char} (h : isBlank c = true) : c.toNat ∈ blankCodes := by
  have codes : (blankRanges.flatMap fun range => List.range' range.1 (range.2 + 1 - range.1)) = blankCodes := by
    decide
  rw [← codes]
  exact mem_of_inRanges h

theorem isWord_eq_false_of_isBlank {c : Char} (h : isBlank c = true) : isWord c = false := by
  have checked : ∀ n ∈ blankCodes, isWord (Char.ofNat n) = false := by decide +kernel
  simpa using checked c.toNat (mem_blankCodes h)

theorem isBlank_eq_false_of_isWord {c : Char} (h : isWord c = true) : isBlank c = false := by
  cases blank : isBlank c with
  | false => rfl
  | true => rw [isWord_eq_false_of_isBlank blank] at h; exact absurd h (by simp)

/-- Unaccented letters and the decimal digits are among the first 128 characters. -/
theorem val_lt_of_isAlphanum {c : Char} (h : c.isAlphanum = true) : c.val < 128 := by
  delta Char.isAlphanum Char.isAlpha Char.isUpper Char.isLower Char.isDigit at h
  simp only [Bool.or_eq_true, Bool.and_eq_true, decide_eq_true_eq, UInt32.le_iff_toNat_le] at h
  rw [UInt32.lt_iff_toNat_lt]
  have letters : 'A'.val.toNat = 65 ∧ 'Z'.val.toNat = 90 ∧ 'a'.val.toNat = 97 ∧ 'z'.val.toNat = 122 := by decide
  have digits : '0'.val.toNat = 48 ∧ '9'.val.toNat = 57 := by decide
  have top : (128 : UInt32).toNat = 128 := rfl
  omega

end Recast.Text
