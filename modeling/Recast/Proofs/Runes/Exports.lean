import Recast.Proofs.Sorting
import Recast.Proofs.Text.Found
import Recast.Runes

/-!
# Taking exported variables out of a script

Two rules look for exported variables, each for itself, and what they recognize is cut out of the script
from the last piece to the first, by its place. A piece in front of another one may reach into it: the
value of a variable runs on to the next semicolon, over any line that has none. By the time such a piece
is cut, the text behind its start is shorter already, and the cut takes characters that belong to no
piece.
-/

set_option autoImplicit false

namespace Recast.Runes

open Recast.Text

/-! ## Characters outside of pieces -/

section Uncovered

variable {α : Type}

/-- Whether a place lies inside one of the pieces. -/
def covered (pieces : List (Found α)) (i : Nat) : Bool :=
  pieces.any fun f => decide (f.start ≤ i ∧ i < f.stop)

/-- The characters of a text that starts at `n` which lie in none of the pieces. -/
def uncoveredFrom (n : Nat) (pieces : List (Found α)) (cs : List Char) : List Char :=
  ((cs.zipIdx n).filter fun c => !covered pieces c.2).map (·.1)

/-- The characters of a text which lie in none of the pieces, in their order. -/
def uncovered (pieces : List (Found α)) (cs : List Char) : List Char := uncoveredFrom 0 pieces cs

variable {pieces others : List (Found α)} {n : Nat} {cs : List Char}

theorem covered_cons (f : Found α) (i : Nat) :
    covered (f :: pieces) i = true ↔ (f.start ≤ i ∧ i < f.stop) ∨ covered pieces i = true := by
  simp [covered]

theorem covered_eq_false_of_lt {i : Nat} (ahead : ∀ f ∈ pieces, i < f.start) : covered pieces i = false := by
  rw [covered, List.any_eq_false]
  intro f member inside
  have start := ahead f member
  have place := of_decide_eq_true inside
  omega

theorem uncoveredFrom_cons_of_covered {c : Char} (here : covered pieces n = true) :
    uncoveredFrom n pieces (c :: cs) = uncoveredFrom (n + 1) pieces cs := by
  simp [uncoveredFrom, List.zipIdx_cons, here]

theorem uncoveredFrom_cons_of_free {c : Char} (here : covered pieces n = false) :
    uncoveredFrom n pieces (c :: cs) = c :: uncoveredFrom (n + 1) pieces cs := by
  simp [uncoveredFrom, List.zipIdx_cons, here]

theorem uncoveredFrom_append (n : Nat) (pieces : List (Found α)) (front back : List Char) :
    uncoveredFrom n pieces (front ++ back) =
      uncoveredFrom n pieces front ++ uncoveredFrom (n + front.length) pieces back := by
  rw [uncoveredFrom, List.zipIdx_append, List.filter_append, List.map_append]
  rfl

theorem uncoveredFrom_congr
    (same : ∀ i, n ≤ i → i < n + cs.length → (covered pieces i = true ↔ covered others i = true)) :
    uncoveredFrom n pieces cs = uncoveredFrom n others cs := by
  induction cs generalizing n with
  | nil => rfl
  | cons c cs ih =>
    rw [List.length_cons] at same
    have rest := ih (n := n + 1) fun i front back => same i (by omega) (by omega)
    have here := same n (by omega) (by omega)
    cases inside : covered pieces n with
    | true => rw [uncoveredFrom_cons_of_covered inside, uncoveredFrom_cons_of_covered (here.mp inside), rest]
    | false =>
      have outside : covered others n = false := by
        rw [← Bool.not_eq_true] at inside ⊢
        exact fun h => inside (here.mpr h)
      rw [uncoveredFrom_cons_of_free inside, uncoveredFrom_cons_of_free outside, rest]

theorem uncoveredFrom_sublist (n : Nat) (pieces : List (Found α)) (cs : List Char) :
    (uncoveredFrom n pieces cs).Sublist cs := by
  have kept := (List.filter_sublist (p := fun c => !covered pieces c.2) (l := cs.zipIdx n)).map Prod.fst
  rwa [List.zipIdx_map_fst] at kept

theorem forall_places_cons {P : Nat → Prop} {c : Char} :
    (∀ i, n ≤ i → i < n + (c :: cs).length → P i) ↔ P n ∧ ∀ i, n + 1 ≤ i → i < n + 1 + cs.length → P i := by
  rw [List.length_cons]
  constructor
  · intro all
    exact ⟨all n (by omega) (by omega), fun i front back => all i (by omega) (by omega)⟩
  · rintro ⟨here, behind⟩ i front back
    by_cases first : i = n
    · rwa [first]
    · exact behind i (by omega) (by omega)

theorem length_uncoveredFrom_eq_iff :
    (uncoveredFrom n pieces cs).length = cs.length ↔ ∀ i, n ≤ i → i < n + cs.length → covered pieces i = false := by
  induction cs generalizing n with
  | nil =>
    refine iff_of_true rfl fun i front back => ?_
    rw [List.length_nil] at back
    omega
  | cons c cs ih =>
    rw [forall_places_cons, ← ih]
    cases here : covered pieces n with
    | true =>
      have shorter := (uncoveredFrom_sublist (n + 1) pieces cs).length_le
      rw [uncoveredFrom_cons_of_covered here, List.length_cons]
      simp only [Bool.true_eq_false, false_and, iff_false]
      omega
    | false => rw [uncoveredFrom_cons_of_free here, List.length_cons, List.length_cons, Nat.succ_inj, and_iff_right rfl]

theorem uncoveredFrom_of_free (free : ∀ i, n ≤ i → i < n + cs.length → covered pieces i = false) :
    uncoveredFrom n pieces cs = cs :=
  (uncoveredFrom_sublist n pieces cs).eq_of_length (length_uncoveredFrom_eq_iff.mpr free)

theorem uncoveredFrom_eq_nil_iff :
    uncoveredFrom n pieces cs = [] ↔ ∀ i, n ≤ i → i < n + cs.length → covered pieces i = true := by
  induction cs generalizing n with
  | nil =>
    refine iff_of_true rfl fun i front back => ?_
    rw [List.length_nil] at back
    omega
  | cons c cs ih =>
    rw [forall_places_cons, ← ih]
    cases here : covered pieces n with
    | true => rw [uncoveredFrom_cons_of_covered here, and_iff_right rfl]
    | false => simp [uncoveredFrom_cons_of_free here]

/-- The characters outside of pieces, in front of, between and behind two places. -/
theorem uncovered_split (pieces : List (Found α)) {start stop : Nat} (order : start ≤ stop)
    (inside : stop ≤ cs.length) :
    uncovered pieces cs = uncoveredFrom 0 pieces (cs.take start) ++
      (uncoveredFrom start pieces ((cs.take stop).drop start) ++ uncoveredFrom stop pieces (cs.drop stop)) := by
  have frontLength : (cs.take start).length = start := List.length_take_of_le (order.trans inside)
  have middleLength : ((cs.take stop).drop start).length = stop - start := by
    rw [List.length_drop, List.length_take_of_le inside]
  have place : start + (stop - start) = stop := by omega
  have upTo : cs.take start ++ (cs.take stop).drop start = cs.take stop := by
    have shorter : cs.take start = (cs.take stop).take start := by
      rw [List.take_take, Nat.min_eq_left order]
    rw [shorter, List.take_append_drop]
  calc uncovered pieces cs
      = uncoveredFrom 0 pieces (cs.take start ++ (cs.take stop).drop start ++ cs.drop stop) := by
        rw [upTo, List.take_append_drop, uncovered]
    _ = uncoveredFrom 0 pieces (cs.take start) ++ (uncoveredFrom start pieces ((cs.take stop).drop start) ++
          uncoveredFrom stop pieces (cs.drop stop)) := by
        rw [List.append_assoc, uncoveredFrom_append, uncoveredFrom_append, frontLength, Nat.zero_add,
          middleLength, place]

end Uncovered

/-! ## Cutting -/

/-- Pieces of a text of a given length, in the order they start. None is empty, but they may overlap. -/
structure Lined (length : Nat) (pieces : List (Found (List Char))) : Prop where
  ordered : pieces.Pairwise fun p q => p.start < q.start
  inside : ∀ p ∈ pieces, p.start < p.stop ∧ p.stop ≤ length

/-- Where the later of two pieces starts inside the earlier one, nothing behind the earlier one is left. -/
def OverlapsAtEnd (length : Nat) (pieces : List (Found (List Char))) : Prop :=
  pieces.Pairwise fun p q => q.start < p.stop → ∀ i, p.stop ≤ i → i < length → covered pieces i = true

section Cutting

variable {p : Found (List Char)} {pieces : List (Found (List Char))} {text : List Char}

/-- Cutting leaves the text in front of the pieces as it is. -/
theorem cutOut_front (text : List Char) {n : Nat} (ahead : ∀ q ∈ pieces, n ≤ q.start) (short : n ≤ text.length) :
    ∃ behind, cutOut pieces text = text.take n ++ behind := by
  induction pieces with
  | nil => exact ⟨text.drop n, (List.take_append_drop n text).symm⟩
  | cons p pieces ih =>
    obtain ⟨behind, rest⟩ := ih fun q member => ahead q (by simp [member])
    have start := ahead p (by simp)
    have front : (text.take n).length = n := List.length_take_of_le short
    have kept : (cutOut pieces text).take p.start = text.take n ++ behind.take (p.start - n) := by
      rw [rest, List.take_append, front, List.take_of_length_le (by omega)]
    refine ⟨behind.take (p.start - n) ++ (cutOut pieces text).drop p.stop, ?_⟩
    change (cutOut pieces text).take p.start ++ (cutOut pieces text).drop p.stop = _
    rw [kept, List.append_assoc]

theorem Lined.tail {length : Nat} (lined : Lined length (p :: pieces)) : Lined length pieces :=
  ⟨(List.pairwise_cons.mp lined.ordered).2, fun q member => lined.inside q (by simp [member])⟩

/-- Of the places inside the first piece, the others cover some if and only if one of them starts there. -/
theorem Lined.apart_iff {length : Nat} (lined : Lined length (p :: pieces)) :
    (∀ i, p.start ≤ i → i < p.stop → covered pieces i = false) ↔ ∀ q ∈ pieces, p.stop ≤ q.start := by
  constructor
  · intro free q member
    by_contra overlap
    have start := (List.pairwise_cons.mp lined.ordered).1 q member
    have nonempty := (lined.tail.inside q member).1
    have here := free q.start (by omega) (by omega)
    rw [covered, List.any_eq_false] at here
    exact here q member (decide_eq_true ⟨Nat.le_refl _, nonempty⟩)
  · intro apart i front back
    refine covered_eq_false_of_lt fun q member => ?_
    have start := apart q member
    omega

/-- Cutting one more piece in front of others. What should stay is the text in front of it and what the
others leave behind it. But the cut goes by places of a text that the others have made shorter already,
and so it takes `lost` characters too many, if there are so many. -/
theorem Lined.cut (lined : Lined text.length (p :: pieces)) :
    ∃ (front behind : List Char) (lost : Nat),
      (lost = 0 ↔ ∀ q ∈ pieces, p.stop ≤ q.start) ∧
      (behind = [] ↔ ∀ i, p.stop ≤ i → i < text.length → covered pieces i = true) ∧
      (uncovered pieces text).drop p.stop = behind.drop lost ∧
      uncovered (p :: pieces) text = front ++ behind ∧
      cutOut (p :: pieces) text = front ++ (cutOut pieces text).drop p.stop := by
  obtain ⟨nonempty, inside⟩ := lined.inside p (by simp)
  have ahead : ∀ q ∈ pieces, p.start < q.start := (List.pairwise_cons.mp lined.ordered).1
  have frontLength : (text.take p.start).length = p.start := List.length_take_of_le (by omega)
  let inner := (text.take p.stop).drop p.start
  have innerLength : inner.length = p.stop - p.start := by
    rw [List.length_drop, List.length_take_of_le inside]
  have backLength : (text.drop p.stop).length = text.length - p.stop := List.length_drop
  have frontFree : ∀ others : List (Found (List Char)), (∀ q ∈ others, p.start ≤ q.start) →
      uncoveredFrom 0 others (text.take p.start) = text.take p.start := by
    intro others starts
    refine uncoveredFrom_of_free fun i _ back => covered_eq_false_of_lt fun q member => ?_
    have start := starts q member
    omega
  refine ⟨text.take p.start, uncoveredFrom p.stop pieces (text.drop p.stop),
    inner.length - (uncoveredFrom p.start pieces inner).length, ?_, ?_, ?_, ?_, ?_⟩
  · have shorter := (uncoveredFrom_sublist p.start pieces inner).length_le
    have places : p.start + inner.length = p.stop := by omega
    rw [← lined.apart_iff, ← places, ← length_uncoveredFrom_eq_iff]
    omega
  · rw [uncoveredFrom_eq_nil_iff, backLength]
    constructor
    · intro all i front back
      exact all i front (by omega)
    · intro all i front back
      exact all i front (by omega)
  · have shorter := (uncoveredFrom_sublist p.start pieces inner).length_le
    have here : (uncoveredFrom p.start pieces inner).length ≤ p.stop - p.start := by omega
    rw [uncovered_split pieces nonempty.le inside, frontFree pieces fun q member => (ahead q member).le,
      List.drop_append, frontLength, List.drop_of_length_le (by omega), List.nil_append, List.drop_append,
      List.drop_of_length_le here, List.nil_append, innerLength]
  · have starts : ∀ q ∈ p :: pieces, p.start ≤ q.start := by
      intro q member
      rcases List.mem_cons.mp member with rfl | later
      · exact Nat.le_refl _
      · exact (ahead q later).le
    have inside' : uncoveredFrom p.start (p :: pieces) inner = [] := by
      refine uncoveredFrom_eq_nil_iff.mpr fun i front back => (covered_cons p i).mpr (.inl ⟨front, ?_⟩)
      omega
    have outside : uncoveredFrom p.stop (p :: pieces) (text.drop p.stop) =
        uncoveredFrom p.stop pieces (text.drop p.stop) := by
      refine uncoveredFrom_congr fun i front _ => ?_
      rw [covered_cons]
      exact or_iff_right (by omega)
    rw [uncovered_split (p :: pieces) nonempty.le inside, frontFree _ starts, inside', outside, List.nil_append]
  · obtain ⟨behind, kept⟩ := cutOut_front text (fun q member => (ahead q member).le)
      (show p.start ≤ text.length by omega)
    change (cutOut pieces text).take p.start ++ (cutOut pieces text).drop p.stop = _
    congr 1
    rw [kept, List.take_left' frontLength]

/-- Cutting keeps no character of a piece, and it keeps the order of the others. -/
theorem Lined.cutOut_sublist (lined : Lined text.length pieces) :
    (cutOut pieces text).Sublist (uncovered pieces text) := by
  induction pieces with
  | nil =>
    rw [uncovered, uncoveredFrom_of_free fun _ _ _ => rfl]
    exact .refl _
  | cons p pieces ih =>
    obtain ⟨front, behind, lost, -, -, others, all, cut⟩ := lined.cut
    have rest := (ih lined.tail).drop p.stop
    rw [others] at rest
    rw [all, cut]
    exact (List.Sublist.refl front).append (rest.trans (List.drop_sublist lost behind))

/-- Cutting leaves all characters outside of the pieces if and only if pieces overlap at most where
nothing is left behind them. -/
theorem Lined.cutOut_eq_iff (lined : Lined text.length pieces) :
    cutOut pieces text = uncovered pieces text ↔ OverlapsAtEnd text.length pieces := by
  induction pieces with
  | nil =>
    refine iff_of_true ?_ .nil
    rw [uncovered, uncoveredFrom_of_free fun _ _ _ => rfl]
    rfl
  | cons p pieces ih =>
    obtain ⟨front, behind, lost, apart, gone, others, all, cut⟩ := lined.cut
    have ahead : ∀ q ∈ pieces, p.start < q.start := (List.pairwise_cons.mp lined.ordered).1
    have part := lined.tail.cutOut_sublist
    have partBehind := part.drop p.stop
    rw [others] at partBehind
    rw [all, cut, List.append_right_inj, OverlapsAtEnd, List.pairwise_cons]
    by_cases nothing : behind = []
    · -- there is nothing behind the first piece that a cut could lose
      have everything : ∀ i, p.start ≤ i → i < text.length → covered (p :: pieces) i = true := by
        intro i front back
        rw [covered_cons]
        by_cases inside : i < p.stop
        · exact .inl ⟨front, inside⟩
        · exact .inr (gone.mp nothing i (by omega) back)
      refine iff_of_true ?_ ⟨?_, ?_⟩
      · rw [nothing, List.drop_nil] at partBehind
        rw [nothing]
        exact List.sublist_nil.mp partBehind
      · intro q _ _ i front back
        have nonempty := (lined.inside p (by simp)).1
        exact everything i (by omega) back
      · refine List.pairwise_of_forall_mem_list fun q member r _ _ i front back => ?_
        have start := ahead q member
        have nonempty := (lined.tail.inside q member).1
        exact everything i (by omega) back
    · by_cases overlap : ∃ q ∈ pieces, q.start < p.stop
      · obtain ⟨q, member, inside⟩ := overlap
        have more : lost ≠ 0 := by
          intro zero
          have clear := apart.mp zero q member
          omega
        refine iff_of_false ?_ ?_
        · intro same
          have lengths := partBehind.length_le
          rw [same, List.length_drop] at lengths
          have positive := List.length_pos_of_ne_nil nothing
          omega
        · rintro ⟨first, -⟩
          refine nothing (gone.mpr fun i front back => ?_)
          rcases (covered_cons p i).mp (first q member inside i front back) with here | later
          · omega
          · exact later
      · have clear : ∀ q ∈ pieces, p.stop ≤ q.start := by
          intro q member
          by_contra inside
          exact overlap ⟨q, member, by omega⟩
        rw [apart.mpr clear, List.drop_zero] at others
        have whole : (cutOut pieces text).drop p.stop = behind ↔ cutOut pieces text = uncovered pieces text := by
          rw [← others]
          constructor
          · intro same
            -- something stays behind `p`, so equal rests mean texts of equal length
            have lengths := congrArg List.length same
            have positive : 0 < ((uncovered pieces text).drop p.stop).length := by
              rw [others]
              exact List.length_pos_of_ne_nil nothing
            rw [List.length_drop, List.length_drop] at lengths
            rw [List.length_drop] at positive
            exact part.eq_of_length (by omega)
          · intro same
            rw [same]
        rw [whole, ih lined.tail]
        constructor
        · intro rest
          refine ⟨fun q member inside => absurd ⟨q, member, inside⟩ overlap, ?_⟩
          exact rest.imp fun h inside i front back => (covered_cons p i).mpr (.inr (h inside i front back))
        · rintro ⟨-, rest⟩
          refine rest.imp_of_mem fun {q r} member _ h inside i front back => ?_
          have start := clear q member
          have nonempty := (lined.tail.inside q member).1
          rcases (covered_cons p i).mp (h inside i front back) with here | later
          · omega
          · exact later

end Cutting

/-! ## Exported variables -/

section Exports

variable {previous : Option Char} {cs entry rest : List Char}

theorem exportedVariable_starts (found : exportedVariable previous cs = some (entry, rest)) :
    ∃ behind, cs.dropWhile isIndent = "export".toList ++ behind := by
  unfold exportedVariable at found
  obtain ⟨-, -, found⟩ := Option.bind_eq_some_iff.mp found
  obtain ⟨behind, start, -⟩ := Option.bind_eq_some_iff.mp found
  exact ⟨behind, after?_eq_some_iff.mp start⟩

theorem aliasedVariable_starts (found : aliasedVariable previous cs = some (entry, rest)) :
    ∃ behind, cs.dropWhile isIndent = "let".toList ++ behind := by
  unfold aliasedVariable at found
  obtain ⟨-, -, found⟩ := Option.bind_eq_some_iff.mp found
  obtain ⟨behind, start, -⟩ := Option.bind_eq_some_iff.mp found
  exact ⟨behind, after?_eq_some_iff.mp start⟩

end Exports

/-- The two rules recognize nothing at the same place. -/
theorem start_ne_start {script : List Char} {p q : Found (List Char)} (aliased : p ∈ found aliasedVariable script)
    (exported : q ∈ found exportedVariable script) : p.start ≠ q.start := by
  intro same
  obtain ⟨_, _, here⟩ := (recognized_of_mem_found aliased).found
  obtain ⟨_, _, there⟩ := (recognized_of_mem_found exported).found
  obtain ⟨behind, startsLet⟩ := aliasedVariable_starts here
  obtain ⟨behind', startsExport⟩ := exportedVariable_starts there
  rw [same, startsExport] at startsLet
  have letters := congrArg List.head? startsLet
  simp at letters

theorem exportsOf_perm (script : List Char) :
    (exportsOf script).Perm (found aliasedVariable script ++ found exportedVariable script) :=
  List.mergeSort_perm _ _

theorem mem_exportsOf {script : List Char} {p : Found (List Char)} :
    p ∈ exportsOf script ↔ p ∈ found aliasedVariable script ∨ p ∈ found exportedVariable script := by
  rw [(exportsOf_perm script).mem_iff, List.mem_append]

theorem pairwise_start_ne {rule : Rule (List Char)} (script : List Char) :
    (found rule script).Pairwise fun p q => p.start ≠ q.start := by
  refine (pairwise_foundFrom 0 (segments rule script)).imp_of_mem fun {p q} member _ apart same => ?_
  have recognized : p.Recognized rule 0 script := recognized_of_mem_found member
  have nonempty := recognized.nonempty
  omega

/-- The exported variables in the order they start. -/
theorem lined_exportsOf (script : List Char) : Lined script.length (exportsOf script) := by
  constructor
  · have sorted : (exportsOf script).Pairwise fun p q => p.start ≤ q.start :=
      pairwise_mergeSort_key Found.start _
    have distinct : (exportsOf script).Pairwise fun p q => p.start ≠ q.start := by
      refine (exportsOf_perm script).symm.pairwise ?_ fun {p q} apart => apart.symm
      rw [List.pairwise_append]
      exact ⟨pairwise_start_ne script, pairwise_start_ne script, fun p aliased q exported =>
        start_ne_start aliased exported⟩
    exact (sorted.and distinct).imp fun order => lt_of_le_of_ne order.1 order.2
  · intro p member
    rcases mem_exportsOf.mp member with aliased | exported
    · have recognized := recognized_of_mem_found aliased
      exact ⟨recognized.nonempty, by simpa using recognized.inside.2⟩
    · have recognized := recognized_of_mem_found exported
      exact ⟨recognized.nonempty, by simpa using recognized.inside.2⟩

/-- The exported variables are what either rule recognizes, in the order of the source, and each gives
one entry of the pattern that takes their place. Pieces of one rule never overlap. Cutting keeps no
character of a piece, and it leaves exactly the others if and only if pieces of different rules overlap
at most where nothing is left behind them; else it takes characters of the script away that belong to no
exported variable. -/
theorem exports_cut_iff (script : List Char) :
    (exportsOf script).Perm (found aliasedVariable script ++ found exportedVariable script) ∧
    (exportsOf script).Pairwise (fun p q => p.start < q.start) ∧
    (found aliasedVariable script).Pairwise (fun p q => p.stop ≤ q.start) ∧
    (found exportedVariable script).Pairwise (fun p q => p.stop ≤ q.start) ∧
    (exportsOf script = [] → ∀ isTyped, upgradeExports script isTyped = script) ∧
    (∀ first more isTyped, exportsOf script = first :: more →
      upgradeExports script isTyped = script.take first.start ++
        propsPattern ((exportsOf script).map (·.value)) isTyped ++
        (cutOut (exportsOf script) script).drop first.start) ∧
    (cutOut (exportsOf script) script).Sublist (uncovered (exportsOf script) script) ∧
    (cutOut (exportsOf script) script = uncovered (exportsOf script) script ↔
      OverlapsAtEnd script.length (exportsOf script)) := by
  have lined := lined_exportsOf script
  refine ⟨exportsOf_perm script, lined.ordered, pairwise_foundFrom 0 _, pairwise_foundFrom 0 _, ?_, ?_,
    lined.cutOut_sublist, lined.cutOut_eq_iff⟩
  · intro none isTyped
    simp only [upgradeExports, none]
  · intro first more isTyped some
    have ahead : ∀ p ∈ exportsOf script, first.start ≤ p.start := by
      intro p member
      have ordered := lined.ordered
      rw [some] at member ordered
      rcases List.mem_cons.mp member with rfl | later
      · exact Nat.le_refl _
      · exact ((List.pairwise_cons.mp ordered).1 p later).le
    have inside := lined.inside first (by simp [some])
    have short : first.start ≤ script.length := by omega
    obtain ⟨behind, kept⟩ := cutOut_front script ahead short
    have front : (cutOut (exportsOf script) script).take first.start = script.take first.start := by
      rw [kept, List.take_left' (List.length_take_of_le short)]
    rw [← front, some]
    simp only [upgradeExports, some]

/-- A script in which a statement ends without a semicolon. -/
def unended : List Char :=
  "export let size = 1\nlet tone = 2;\nexport \x7b tone as color \x7d;\nkeep();\n".toList

theorem exportsOf_unended : exportsOf unended =
    [⟨0, 34, "size = 1\nlet tone = 2".toList⟩, ⟨20, 60, "color: tone = 2".toList⟩] := by
  have aliased : found aliasedVariable unended = [⟨20, 60, "color: tone = 2".toList⟩] := by decide +kernel
  have exported : found exportedVariable unended = [⟨0, 34, "size = 1\nlet tone = 2".toList⟩] := by
    decide +kernel
  rw [exportsOf, aliased, exported]
  simp [List.mergeSort]

/-- The first value runs into the second variable, and the line behind both is lost. -/
theorem exports_cut_iff_unended :
    cutOut (exportsOf unended) unended = [] ∧
    uncovered (exportsOf unended) unended = "keep();\n".toList ∧
    ¬ OverlapsAtEnd unended.length (exportsOf unended) := by
  have left : cutOut (exportsOf unended) unended = [] := by
    rw [exportsOf_unended]
    decide +kernel
  have kept : uncovered (exportsOf unended) unended = "keep();\n".toList := by
    rw [exportsOf_unended]
    decide +kernel
  obtain ⟨-, -, -, -, -, -, -, exact⟩ := exports_cut_iff unended
  refine ⟨left, kept, fun atEnd => ?_⟩
  have same := exact.mpr atEnd
  rw [left, kept] at same
  exact absurd same (by decide)

end Recast.Runes
