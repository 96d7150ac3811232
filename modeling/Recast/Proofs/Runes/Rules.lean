import Recast.Proofs.Text.Character
import Recast.Proofs.Text.Substitution
import Recast.Runes

/-!
# What the rules for markup recognize

The three rules that upgrade markup, each with the exact form of what it recognizes: a slot, an event
directive that is not the end of a word, and the older name of the props that are not bound, unless
it is the start of a longer word.
-/

set_option autoImplicit false

namespace Recast.Runes

open Recast.Text

/-- What stands for the content of callers. -/
def renderedChildren : List Char := "\x7b@render children?.()\x7d".toList

theorem renderedChildren_eq : renderedChildren = "\x7b@render children?.()\x7d".toList := rfl

theorem slotElement_eq_some {p : Option Char} {cs new rest : List Char}
    (h : slotElement p cs = some (new, rest)) :
    ∃ blanks, (∀ c ∈ blanks, isBlank c = true) ∧
      cs = "<slot".toList ++ (blanks ++ ("/>".toList ++ rest)) := by
  simp only [slotElement, Option.bind_eq_bind, Option.bind_eq_some_iff] at h
  obtain ⟨rest', ⟨inside, front, back⟩, result⟩ := h
  obtain ⟨blanks, all, shape⟩ := afterWord?_eq_some back
  simp only [Option.pure_def, Option.some.injEq, Prod.mk.injEq] at result
  refine ⟨blanks, all, ?_⟩
  rw [after?_eq_some_iff.mp front, shape, result.2]

theorem slotElement_spelled (p : Option Char) {blanks : List Char}
    (all : ∀ c ∈ blanks, isBlank c = true) (rest : List Char) :
    slotElement p ("<slot".toList ++ (blanks ++ ("/>".toList ++ rest))) =
      some (renderedChildren, rest) := by
  have back : afterWord? "/>" (blanks ++ ("/>".toList ++ rest)) = some rest :=
    afterWord?_append all (by decide) (by decide) rest
  simp only [slotElement, after?_append, Option.bind_some, back, Option.bind_eq_bind,
    Option.pure_def, renderedChildren_eq]

theorem slotElement_eq_none_of_ne {c : Char} (h : c ≠ '<') (p : Option Char) (cs : List Char) :
    slotElement p (c :: cs) = none := by
  have front : after? "<slot".toList (c :: cs) = none := after?_eq_none_of_head h.symm _ _
  simp only [slotElement, front, Option.bind_none, Option.bind_eq_bind]

theorem eventDirective_eq_some {p : Option Char} {cs new rest : List Char}
    (h : eventDirective p cs = some (new, rest)) :
    p.any isWord = false ∧ ∃ event, event ≠ [] ∧ (∀ c ∈ event, isWord c = true) ∧
      cs = "on:".toList ++ (event ++ '=' :: rest) := by
  simp only [eventDirective, Option.bind_eq_bind, Option.bind_eq_some_iff, Option.guard_eq_some'] at h
  obtain ⟨_, boundary, inside, front, ⟨event, behind⟩, run, rest', equals, result⟩ := h
  obtain ⟨nonempty, all, shape⟩ := wordRun?_eq_some run
  have behind' : behind = ['='] ++ rest' := after?_eq_some_iff.mp equals
  simp only [Option.pure_def, Option.some.injEq, Prod.mk.injEq] at result
  refine ⟨by simpa using boundary, event, nonempty, all, ?_⟩
  rw [after?_eq_some_iff.mp front, shape, behind', result.2]
  rfl

theorem eventDirective_spelled {p : Option Char} (boundary : p.any isWord = false)
    {event : List Char} (nonempty : event ≠ []) (all : ∀ c ∈ event, isWord c = true)
    (rest : List Char) :
    eventDirective p ("on:".toList ++ (event ++ '=' :: rest)) =
      some ("on".toList ++ event ++ ['='], rest) := by
  have run : wordRun? (event ++ '=' :: rest) = some (event, '=' :: rest) :=
    wordRun?_append nonempty all (by simp; decide)
  have equals : after? ['='] ('=' :: rest) = some rest := rfl
  simp only [eventDirective, boundary, Bool.not_false, guard_true, Option.pure_def, after?_append,
    Option.bind_eq_bind, Option.bind_some, run, equals]

theorem eventDirective_eq_none_of_ne {c : Char} (h : c ≠ 'o') (p : Option Char) (cs : List Char) :
    eventDirective p (c :: cs) = none := by
  have front : after? "on:".toList (c :: cs) = none := after?_eq_none_of_head h.symm _ _
  simp only [eventDirective, front, Option.bind_eq_bind, Option.bind_none, Option.bind_fun_none]

/-- The older names of the props that are not bound. -/
def legacyNames : List (List Char) := ["$$restProps".toList, "$$props".toList]

theorem legacyRest_eq_some {p : Option Char} {cs new rest : List Char}
    (h : legacyRest p cs = some (new, rest)) :
    ∃ name ∈ legacyNames, cs = name ++ rest ∧ rest.head?.any isWord = false := by
  simp only [legacyRest, Option.bind_eq_bind, Option.bind_eq_some_iff, Option.guard_eq_some'] at h
  obtain ⟨rest', found, _, boundary, result⟩ := h
  simp only [Option.pure_def, Option.some.injEq, Prod.mk.injEq] at result
  obtain ⟨_, rfl⟩ := result
  have boundary' : rest'.head?.any isWord = false := by simpa using boundary
  cases first : after? "$$restProps".toList cs with
  | some behind =>
    rw [first] at found
    obtain rfl : behind = rest' := by simpa using found
    exact ⟨_, .head _, after?_eq_some_iff.mp first, boundary'⟩
  | none =>
    rw [first] at found
    exact ⟨_, .tail _ (.head _), after?_eq_some_iff.mp (by simpa using found), boundary'⟩

theorem legacyRest_spelled (p : Option Char) {name rest : List Char} (known : name ∈ legacyNames)
    (boundary : rest.head?.any isWord = false) :
    legacyRest p (name ++ rest) = some ("restProps".toList, rest) := by
  have found : (after? "$$restProps".toList (name ++ rest) <|> after? "$$props".toList (name ++ rest))
      = some rest := by
    simp only [legacyNames, List.mem_cons, List.not_mem_nil, or_false] at known
    rcases known with rfl | rfl
    · rw [after?_append]; rfl
    · rw [after?_append]; rfl
  simp only [legacyRest, found, boundary, Bool.not_false, guard_true, Option.pure_def,
    Option.bind_eq_bind, Option.bind_some]

theorem legacyRest_eq_none_of_ne {c : Char} (h : c ≠ '$') (p : Option Char) (cs : List Char) :
    legacyRest p (c :: cs) = none := by
  have rest : after? "$$restProps".toList (c :: cs) = none := after?_eq_none_of_head h.symm _ _
  have props : after? "$$props".toList (c :: cs) = none := after?_eq_none_of_head h.symm _ _
  have nothing : (none <|> none : Option (List Char)) = none := rfl
  simp only [legacyRest, rest, props, nothing, Option.bind_eq_bind, Option.bind_none]

end Recast.Runes
