import Recast.Analysis.Markup
import Recast.Proofs.Analysis.Note
import Recast.Proofs.Markup.Sound

/-!
# Markup that is read is sound

Whatever tree a component returns, the nodes that are made of it are sound: the children of a void
element are dropped before the element is made.
-/

set_option autoImplicit false

namespace Recast.Analysis

open Recast.Tsx Recast.Markup

variable (ctx : MarkupContext) {below : Tree → Noting (List Node)} (sound : ∀ t, Yields Sound (below t))

section Below

include sound

theorem childrenOf_sound (t : Tree) : Yields Sound (childrenOf below t) := by
  refine (Yields.mapM _ fun t _ => sound t).bind fun groups each => ?_
  exact Yields.pure (sound_flatten each)

theorem elementOf_sound (tag : Tree) (whole : Option Tree) :
    Yields (fun n => Sound [n]) (elementOf ctx below tag whole) := by
  refine Yields.after fun h => ?_
  have childless : Sound [.element h []] := sound_element.mpr ⟨fun _ => rfl, sound_nil⟩
  cases whole with
  | none => exact Yields.pure childless
  | some t =>
    refine (childrenOf_sound sound t).bind fun children inside => ?_
    split
    · exact Yields.after fun _ => Yields.pure childless
    · rename_i kept
      refine Yields.pure (sound_element.mpr ⟨fun isVoid => ?_, inside⟩)
      simpa [isVoid] using kept

theorem guardedBranch_sound (guard : String) (branch : Option Tree) :
    Yields Sound (guardedBranch below guard branch) := by
  rw [guardedBranch]
  cases branch.filter isMarkup with
  | none => exact Yields.pure sound_nil
  | some t =>
    refine (sound t).bind fun nodes inside => Yields.pure ?_
    match nodes with
    | [] => exact sound_nil
    | [n] => exact sound_guarded.mpr inside
    | n :: m :: ns => exact sound_guarded.mpr (sound_fragment.mpr inside)

theorem expressionChild_sound (container : Tree) : Yields Sound (expressionChild below container) := by
  rw [expressionChild]
  cases container.parts.head?.bind Tree.unwrap with
  | none => exact Yields.pure sound_nil
  | some e =>
    dsimp only
    split
    · exact Yields.pure (sound_slot _)
    · split
      · exact Yields.pure sound_nil
      · split
        · refine (guardedBranch_sound sound _ _).bind fun shown inside => ?_
          split
          · exact Yields.pure inside
          · exact Yields.pure (sound_text _ _)
        · exact Yields.pure (sound_text _ _)
      · refine (guardedBranch_sound sound _ _).bind fun yes insideYes => ?_
        refine (guardedBranch_sound sound _ _).bind fun no insideNo => Yields.pure ?_
        split
        · exact sound_text _ _
        · exact sound_append.mpr ⟨insideYes, insideNo⟩
      · exact Yields.pure (sound_text _ _)

theorem convertNode_sound (t : Tree) : Yields Sound (convertNode ctx below t) := by
  rw [convertNode]
  cases t.unwrap with
  | none => exact Yields.pure sound_nil
  | some t =>
    dsimp only
    split
    · split
      · refine (childrenOf_sound sound t).bind fun children inside => ?_
        exact Yields.pure (sound_fragment.mpr inside)
      · split
        · exact (elementOf_sound ctx sound _ _).bind fun n here => Yields.pure here
        · exact Yields.pure (sound_element.mpr ⟨fun _ => rfl, sound_nil⟩)
    · exact (elementOf_sound ctx sound _ _).bind fun n here => Yields.pure here
    · refine Yields.pure ?_
      split
      · exact sound_nil
      · exact sound_text _ _
    · exact Yields.pure (sound_text _ _)
    · exact expressionChild_sound sound t
    · exact Yields.pure (sound_text _ _)

end Below

theorem convertUpTo_sound (n : Nat) (t : Tree) : Yields Sound (convertUpTo ctx n t) := by
  induction n generalizing t with
  | zero => exact Yields.pure sound_nil
  | succ n ih => exact convertNode_sound ctx ih t

/-- The markup of a component is sound. -/
theorem convertRoot_sound (t : Tree) : Yields Sound (convertRoot ctx t) := by
  rw [convertRoot]
  cases t.unwrap with
  | none => exact Yields.pure sound_nil
  | some u =>
    dsimp only
    split
    · exact childrenOf_sound (fun t => convertUpTo_sound ctx _ t) u
    · exact convertUpTo_sound ctx _ u

end Recast.Analysis
