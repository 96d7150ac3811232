import Recast.Proofs.Text.Substitution

/-!
# Recognized pieces by their places

A scan gives each recognized piece by the places where it starts and ends. The pieces of one scan lie
inside the text and behind one another, and the rule recognizes each of them at the place where it
starts.
-/

set_option autoImplicit false

namespace Recast.Text

variable {α : Type}

deriving instance DecidableEq for Found

theorem foundFrom_pushPlain (n : Nat) (c : Char) (pieces : List (Segment α)) :
    foundFrom n (pushPlain c pieces) = foundFrom (n + 1) pieces := by
  unfold pushPlain
  split
  · simp only [foundFrom, List.length_cons]
    congr 1
    omega
  · simp [foundFrom]

theorem le_start_of_mem_foundFrom {n : Nat} {pieces : List (Segment α)} {f : Found α}
    (member : f ∈ foundFrom n pieces) : n ≤ f.start := by
  induction pieces generalizing n with
  | nil => cases member
  | cons piece pieces ih =>
    cases piece with
    | plain t =>
      have behind := ih member
      omega
    | hit t a =>
      rcases List.mem_cons.mp member with rfl | later
      · exact Nat.le_refl _
      · have behind := ih later
        omega

/-- Each piece of a scan ends before the next one starts. -/
theorem pairwise_foundFrom (n : Nat) (pieces : List (Segment α)) :
    (foundFrom n pieces).Pairwise fun f g => f.stop ≤ g.start := by
  induction pieces generalizing n with
  | nil => exact .nil
  | cons piece pieces ih =>
    cases piece with
    | plain t => exact ih _
    | hit t a => exact List.pairwise_cons.mpr ⟨fun g member => le_start_of_mem_foundFrom member, ih _⟩

/-- A piece of a text that starts at `n`: it is not empty and lies inside the text, and the rule
recognizes it where it starts. -/
structure Found.Recognized (rule : Rule α) (n : Nat) (cs : List Char) (f : Found α) : Prop where
  nonempty : f.start < f.stop
  inside : n ≤ f.start ∧ f.stop ≤ n + cs.length
  found : ∃ previous rest, rule previous (cs.drop (f.start - n)) = some (f.value, rest)

theorem Found.Recognized.cons {rule : Rule α} {n : Nat} {cs : List Char} {f : Found α}
    (h : f.Recognized rule (n + 1) cs) (c : Char) : f.Recognized rule n (c :: cs) := by
  obtain ⟨nonempty, ⟨front, back⟩, previous, rest, found⟩ := h
  have place : f.start - n = (f.start - (n + 1)) + 1 := by omega
  refine ⟨nonempty, ⟨by omega, ?_⟩, previous, rest, ?_⟩
  · rw [List.length_cons]
    omega
  · rw [place, List.drop_succ_cons]
    exact found

/-- The first `skip` characters belong to a piece in front. -/
theorem recognized_of_mem_foundFrom {rule : Rule α} {skip : Nat} {p : Option Char} {cs : List Char} {n : Nat}
    {f : Found α} (member : f ∈ foundFrom (n + skip) (segmentsFrom rule skip p cs)) :
    f.Recognized rule n cs := by
  fun_induction segmentsFrom rule skip p cs generalizing n with
  | case1 => cases member
  | case2 skip p c cs ih =>
    have shifted : n + (skip + 1) = n + 1 + skip := by omega
    rw [shifted] at member
    exact (ih member).cons c
  | case3 p c cs a rest found length =>
    rename_i ih
    have total : ((c :: cs).take (length - 1 + 1)).length = length - 1 + 1 := by
      rw [List.length_take, List.length_cons]
      have bound : length ≤ cs.length + 1 := Nat.sub_le _ _
      omega
    rcases List.mem_cons.mp member with rfl | later
    · refine ⟨?_, ⟨Nat.le_refl _, ?_⟩, p, rest, ?_⟩
      · dsimp only
        omega
      · have bound : length ≤ (c :: cs).length := Nat.sub_le _ _
        have positive : 0 < (c :: cs).length := by simp
        dsimp only
        omega
      · simpa using found
    · have shifted : n + 0 + ((c :: cs).take (length - 1 + 1)).length = n + 1 + (length - 1) := by omega
      rw [shifted] at later
      exact (ih later).cons c
  | case4 p c cs _ ih =>
    rw [foundFrom_pushPlain] at member
    exact (ih member).cons c

theorem recognized_of_mem_found {rule : Rule α} {cs : List Char} {f : Found α} (member : f ∈ found rule cs) :
    f.Recognized rule 0 cs := by
  have behind : f ∈ foundFrom (0 + 0) (segmentsFrom rule 0 none cs) := member
  exact recognized_of_mem_foundFrom behind

end Recast.Text
