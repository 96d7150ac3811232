import Recast.Proofs.Text.Front
import Recast.Repair.Imports

/-!
# Fixed texts

A rule that replaces a fixed text finds it where it occurs, and on both sides of a character that is not part of it for
itself. Each replacement changes the length by the same number.
-/

set_option autoImplicit false

namespace Recast.Repair

open Recast.Text

variable {old new : String}

theorem literally_eq_some {previous : Option Char} {cs text rest : List Char}
    (found : literally old new previous cs = some (text, rest)) : cs = old.toList ++ rest ∧ text = new.toList := by
  obtain ⟨left, behind, same⟩ := Option.map_eq_some_iff.mp found
  obtain ⟨rfl, rfl⟩ := Prod.mk.inj same
  exact ⟨after?_eq_some_iff.mp behind, rfl⟩

theorem consumes_literally (nonempty : old.toList ≠ []) (new : String) : Consumes (literally old new) := by
  intro previous cs text rest found
  exact ⟨old.toList, nonempty, (literally_eq_some found).1⟩

theorem recognizes_literally (nonempty : old.toList ≠ []) (new : String) (cs : List Char) :
    recognizes (literally old new) cs = occurs old.toList cs := by
  have general : ∀ p : Option Char,
      (cutHitFrom? (literally old new) p cs).isSome = (cut? old.toList cs).isSome := by
    induction cs with
    | nil => simp [cutHitFrom?, cut?, nonempty]
    | cons c cs ih =>
      intro p
      cases found : after? old.toList (c :: cs) with
      | some rest => simp [cutHitFrom?, cut?, literally, found]
      | none => simpa [cutHitFrom?, cut?, literally, found] using ih (some c)
  exact general none

theorem substitute_literally_of_not_occurs (nonempty : old.toList ≠ []) (new : String) {cs : List Char}
    (absent : occurs old.toList cs = false) : substitute (literally old new) cs = cs := by
  rw [← recognizes_literally nonempty new, recognizes_eq_false_iff] at absent
  have passed := substituteBehind_of_silent absent
  rwa [List.append_nil, substituteBehind_nil, List.append_nil] at passed

/-- What lacks a character is replaced on both sides of it for itself. -/
theorem substituteBehind_literally_append (nonempty : old.toList ≠ []) {c : Char} (outside : c ∉ old.toList)
    (previous : Option Char) (text rest : List Char) :
    substituteBehind (literally old new) previous (text ++ c :: rest) =
      substitute (literally old new) text ++ c :: substituteBehind (literally old new) (some c) rest := by
  have stop : ∀ d ∈ (c :: rest).head?, d ∉ old.toList := by simpa using outside
  have ignores : ∀ p q cs, literally old new p cs = literally old new q cs := fun _ _ _ => rfl
  induction length : text.length using Nat.strong_induction_on generalizing text previous with
  | _ n ih =>
    subst length
    have whole := after?_append_of_head stop text
    cases found : after? old.toList text with
    | some behind =>
      obtain rfl := after?_eq_some_iff.mp found
      have shorter : behind.length < (old.toList ++ behind).length := by
        have positive := List.length_pos_of_ne_nil nonempty
        rw [List.length_append]
        omega
      have here : ∀ p back, literally old new p (old.toList ++ back) = some (new.toList, back) := fun p back => by
        rw [literally, after?_append, Option.map_some]
      rw [List.append_assoc, substituteBehind_of_some nonempty (here _ _), ih _ shorter _ _ rfl, substitute_eq,
        substitute_eq, substituteBehind_of_some nonempty (here _ _),
        substituteBehind_previous ignores (lastOr none old.toList) none behind,
        List.append_assoc]
    | none =>
      rw [found, Option.map_none] at whole
      cases text with
      | nil =>
        have here : literally old new previous (c :: rest) = none := by
          rw [literally, ← List.nil_append (c :: rest), whole, Option.map_none]
        rw [List.nil_append, substituteBehind_of_none here, substitute_eq, substituteBehind_nil, List.nil_append]
      | cons d text =>
        have here : literally old new previous (d :: (text ++ c :: rest)) = none := by
          rw [literally, ← List.cons_append, whole, Option.map_none]
        have alone : literally old new none (d :: text) = none := by rw [literally, found, Option.map_none]
        rw [List.cons_append, substituteBehind_of_none here, ih _ (by simp) _ _ rfl, substitute_eq, substitute_eq,
          substituteBehind_of_none alone, substituteBehind_previous ignores (some d) none text, List.cons_append]

theorem length_substitute_literally (nonempty : old.toList ≠ []) (new : String) (cs : List Char) :
    (substitute (literally old new) cs).length + old.toList.length * hits (literally old new) cs =
      cs.length + new.toList.length * hits (literally old new) cs := by
  have general : ∀ pieces : List (Segment (List Char)),
      (∀ raw text, .hit raw text ∈ pieces → raw = old.toList ∧ text = new.toList) →
      (pieces.flatMap (Segment.replaced id)).length + old.toList.length * (pieces.filterMap Segment.value?).length =
        (pieces.flatMap Segment.text).length + new.toList.length * (pieces.filterMap Segment.value?).length := by
    intro pieces each
    induction pieces with
    | nil => rfl
    | cons piece pieces ih =>
      have later := ih fun raw text member => each raw text (.tail _ member)
      cases piece with
      | plain t =>
        simp only [List.flatMap_cons, Segment.replaced, Segment.text, List.length_append, Segment.value?,
          List.filterMap_cons]
        omega
      | hit raw text =>
        obtain ⟨rfl, rfl⟩ := each raw text List.mem_cons_self
        simp only [List.flatMap_cons, Segment.replaced, Segment.text, List.length_append, Segment.value?,
          List.filterMap_cons, List.length_cons, Nat.mul_succ, id]
        omega
  have whole := general (segments (literally old new) cs) fun raw text member => by
    obtain ⟨-, p, rest, found⟩ := rule_of_hit_mem (consumes_literally nonempty new) member
    obtain ⟨same, rfl⟩ := literally_eq_some found
    exact ⟨List.append_cancel_right same, rfl⟩
  rwa [flatMap_text_segments] at whole

theorem takes_literally_of_not_occurs (nonempty : old.toList ≠ []) (single : '\n' ∉ old.toList)
    (new : String) {line : List Char} (absent : occurs old.toList line = false) :
    Takes (literally old new) (line ++ ['\n']) (line ++ ['\n']) := by
  intro previous rest _
  rw [List.append_assoc, List.append_assoc, List.singleton_append, substituteBehind_literally_append nonempty single,
    substitute_literally_of_not_occurs nonempty new absent]
  rfl

end Recast.Repair
