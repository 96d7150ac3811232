import Recast.Proofs.Normalize.Repair
import Recast.Proofs.Repair.Script
import Recast.Repair.Imports

/-!
# Repairing files with dynamic tags

A file with dynamic tags behind its script is repaired to what a file with native tags is repaired
to, but for the script itself.
-/

set_option autoImplicit false

namespace Recast.Normalize

open Recast.Text Recast.Repair

/-! ## Text without dynamic tags -/

/-- What does not start in a text does not start at its end either, if it lacks the last character. -/
theorem after?_append_eq_none {start front : List Char} {last : Char} (outside : last ∉ start)
    (absent : after? start (front ++ [last]) = none) (rest : List Char) :
    after? start (front ++ [last] ++ rest) = none := by
  have stop : ∀ back : List Char, ∀ c ∈ (last :: back).head?, c ∉ start := by simpa using outside
  rw [after?_append_of_head (stop []), Option.map_eq_none_iff] at absent
  rw [List.append_assoc, List.singleton_append, after?_append_of_head (stop rest), absent, Option.map_none]

/-- Text that lacks dynamic tags and ends with a character that is not part of one. -/
theorem inert_of_lacks {target : Target} {front : List Char} {last : Char}
    (outside : ∀ start ∈ dynamicStarts target, last ∉ '<' :: start)
    (absent : Lacks (dynamicStarts target) (front ++ [last])) : Inert target (front ++ [last]) := by
  have nowhere : ∀ front, Lacks (dynamicStarts target) (front ++ [last]) →
      ∀ rest, markRule target none (front ++ [last] ++ rest) = none := by
    intro front absent rest
    have each : ∀ start ∈ dynamicStarts target,
        after? ('<' :: start) (front ++ [last] ++ rest) = none := by
      intro start member
      refine after?_append_eq_none (outside start member) ?_ rest
      cases front with
      | nil => exact (occurs_cons_eq_false (absent start member)).1
      | cons c front => exact (occurs_cons_eq_false (absent start member)).1
    exact markRule_eq_none_of_after (each _ (.head _)) (each _ (.tail _ (.head _))) none
  induction front with
  | nil => exact ⟨nowhere [] absent, trivial⟩
  | cons c front ih => exact ⟨nowhere (c :: front) absent, ih (@Lacks.of_append _ [c] _ absent)⟩

/-! ## Text without scripts -/

theorem scriptBlock_eq_none {cs : List Char} (h : after? "<script".toList cs = none) (p : Option Char) :
    scriptBlock p cs = none := by
  simp only [scriptBlock, h, Option.bind_eq_bind, Option.bind_none]

theorem scriptBlock_eq_none_of_ne {c : Char} (h : c ≠ '<') (p : Option Char) (cs : List Char) :
    scriptBlock p (c :: cs) = none :=
  scriptBlock_eq_none (after?_eq_none_of_head h.symm _ _) p

theorem scriptBlock_closing (p : Option Char) (cs : List Char) :
    scriptBlock p ('<' :: '/' :: cs) = none :=
  scriptBlock_eq_none rfl p

theorem bracket_not_mem_tag (p : Primitive) : '<' ∉ p.tag.toList := by
  intro bracket
  exact absurd (p.tag_letters _ bracket) (by decide)

/-- No script starts in a text where none starts with native tags. -/
theorem silent_scriptBlock_spell (target : Target) {stage : Stage} (native : stage ≠ .dynamic)
    {ts : List Token} (absent : Lacks (reservedStarts target) (spell target .native ts))
    (p : Option Char) : Silent scriptBlock p (spell target stage ts) [] := by
  have author : ∀ {c : Char} {ts : List Token}, Lacks (reservedStarts target)
      (spell target .native (.char c :: ts)) → ∀ p, scriptBlock p (c :: spell target stage ts) = none :=
    fun absent p => scriptBlock_eq_none (after?_reserved absent stage (.head _)) p
  have letters : ∀ (q : Primitive) (p : Option Char) (rest : List Char),
      Silent scriptBlock p q.tag.toList rest := fun q p rest =>
    silent_of_forall (fun c inTag _ _ => scriptBlock_eq_none_of_ne
      (fun bracket => bracket_not_mem_tag q (bracket ▸ inTag)) _ _) p rest
  have closing : ∀ (q : Primitive) (p : Option Char) (rest : List Char),
      Silent scriptBlock p ('<' :: '/' :: (q.tag.toList ++ ['>'])) rest := by
    intro q p rest
    refine ⟨scriptBlock_closing p _, scriptBlock_eq_none_of_ne (by decide) _ _, ?_⟩
    refine (silent_append _ _ _ _ _).mpr ⟨letters q _ _, ?_⟩
    exact ⟨scriptBlock_eq_none_of_ne (by decide) _ _, trivial⟩
  induction ts generalizing p with
  | nil => trivial
  | cons t ts ih =>
    have later : Lacks (reservedStarts target) (spell target .native ts) := by
      rw [spell_cons] at absent
      exact absent.of_append
    rw [spell_cons]
    refine (silent_append _ p _ _ []).mpr ⟨?_, ih later _⟩
    rw [List.append_nil]
    cases t with
    | char c => exact ⟨author absent p, trivial⟩
    | opens q =>
      have start : scriptBlock p ('<' :: (q.tag.toList ++ spell target stage ts)) = none := by
        have split := @author '<' (q.tag.toList.map .char ++ ts) (by simpa [Token.text] using absent) p
        simpa using split
      cases stage with
      | dynamic => exact absurd rfl native
      | substituted => exact ⟨start, letters q _ _⟩
      | native => exact ⟨start, letters q _ _⟩
    | closes q =>
      cases stage with
      | dynamic => exact absurd rfl native
      | substituted => exact closing q p _
      | native => exact closing q p _
    | finishes q =>
      cases stage with
      | dynamic => exact absurd rfl native
      | substituted =>
        exact ⟨scriptBlock_eq_none_of_ne (by decide) _ _, scriptBlock_eq_none_of_ne (by decide) _ _,
          scriptBlock_eq_none_of_ne (by decide) _ _, closing q _ _⟩
      | native =>
        exact ⟨scriptBlock_eq_none_of_ne (by decide) _ _, scriptBlock_eq_none_of_ne (by decide) _ _,
          scriptBlock_eq_none_of_ne (by decide) _ _, trivial⟩

/-! ## The file -/

section File

variable {attributes body : List Char} (allowed : ScriptAttributes attributes)
  (closes : ClosesAtEnd (scriptText attributes body)) {target : Target}
  (inert : Lacks (dynamicStarts target) (scriptText attributes body))

include inert in
theorem inert_scriptText : Inert target (scriptText attributes body) := by
  obtain ⟨front, last⟩ := scriptText_eq_concat attributes body
  rw [last] at inert ⊢
  exact inert_of_lacks (by cases target <;> decide) inert

include allowed closes inert

/-- With dynamic tags, a file is repaired as if it had native ones. -/
theorem repairMarkup_dynamic (runes : Bool) {ts : List Token} (reads : Reads [] (ts ++ [Token.char '\n']) [])
    (absent : Lacks (reservedStarts target) (spell target .native (ts ++ [Token.char '\n']))) :
    (repairMarkup (scriptText attributes body ++ spell target .dynamic (ts ++ [Token.char '\n'])) target
        Catalog.primitiveTags runes).text =
      scriptText attributes body ++ fixMarkup target runes (spell target .native (ts ++ [Token.char '\n'])) := by
  have tags := substituteAt_spell target reads absent
  have substituted : (substituteTags
      (scriptText attributes body ++ spell target .dynamic (ts ++ [Token.char '\n'])) target
        Catalog.primitiveTags).text =
      scriptText attributes body ++ spell target .substituted (ts ++ [Token.char '\n']) := by
    rw [substituteTags_eq, substituteAt_inert target _ _ (inert_scriptText inert), Repaired.behind]
    exact congrArg (scriptText attributes body ++ ·) tags
  have silent := @silent_scriptBlock_spell target .substituted (by simp) _ absent
  simp only [repairMarkup, substituted]
  rw [outsideScripts_scriptText allowed closes _ (by simp [Token.text]) silent,
    fixMarkup_spell target runes reads]

theorem repairMarkup_native (runes : Bool) {ts : List Token}
    (absent : Lacks (reservedStarts target) (spell target .native (ts ++ [Token.char '\n']))) :
    (repairMarkup (scriptText attributes body ++ spell target .native (ts ++ [Token.char '\n'])) target
        Catalog.primitiveTags runes).text =
      scriptText attributes body ++ fixMarkup target runes (spell target .native (ts ++ [Token.char '\n'])) := by
  have quiet : Inert target (spell target .native (ts ++ [Token.char '\n'])) := by
    have lacks := absent.dynamic
    rw [spell_append] at lacks ⊢
    exact inert_of_lacks (by cases target <;> decide) lacks
  have passed := substituteAt_inert target Catalog.primitiveTags []
    ((inert_scriptText inert).append quiet) []
  rw [List.append_nil, substituteAt_nil, ← substituteTags_eq] at passed
  have silent := @silent_scriptBlock_spell target .native (by simp) _ absent
  simp only [repairMarkup, passed, Repaired.behind, List.append_nil]
  exact outsideScripts_scriptText allowed closes _ (by simp [Token.text]) silent

end File

/-! ## Cleaning -/

theorem substitute_eq_self_of_hits {rule : Rule (List Char)} {text : List Char}
    (none' : hits rule text = 0) : substitute rule text = text := by
  have plain : ∀ piece ∈ segments rule text, piece.value? = none := by
    rw [hits, List.length_eq_zero_iff, List.filterMap_eq_nil_iff] at none'
    exact none'
  have same : (segments rule text).flatMap (Segment.replaced id) =
      (segments rule text).flatMap Segment.text := by
    refine List.flatMap_congr fun piece member => ?_
    cases piece with
    | plain t => rfl
    | hit t a => exact absurd (plain _ member) (by simp [Segment.value?])
  rw [substitute, same, flatMap_text_segments]

theorem cleanImports_text_of_count {text : List Char} {target : Target} {runes : Bool}
    (none' : (cleanImports text target runes).count = 0) : (cleanImports text target runes).text = text := by
  have byRule : ∀ (rule : Rule (List Char)) (c : Cleaned), (c.byRule rule).count = 0 →
      c.count = 0 ∧ (c.byRule rule).text = c.text := by
    intro rule c zero
    obtain ⟨before, here⟩ := Nat.add_eq_zero_iff.mp zero
    exact ⟨before, substitute_eq_self_of_hits here⟩
  have byChange : ∀ (f : List Char → List Char) (c : Cleaned), (c.byChange f).count = 0 →
      c.count = 0 ∧ (c.byChange f).text = c.text := by
    intro f c zero
    obtain ⟨before, here⟩ := Nat.add_eq_zero_iff.mp zero
    refine ⟨before, ?_⟩
    by_contra changed
    have changed' : f c.text ≠ c.text := changed
    rw [if_neg changed'] at here
    exact absurd here (by simp)
  have rules : ∀ (rs : List (Rule (List Char))) (c : Cleaned),
      (rs.foldl (fun c rule => c.byRule rule) c).count = 0 →
      c.count = 0 ∧ (rs.foldl (fun c rule => c.byRule rule) c).text = c.text := by
    intro rs
    induction rs with
    | nil => exact fun c zero => ⟨zero, rfl⟩
    | cons rule rs ih =>
      intro c zero
      obtain ⟨later, same⟩ := ih _ zero
      obtain ⟨before, here⟩ := byRule rule c later
      exact ⟨before, same.trans here⟩
  rw [cleanImports] at none' ⊢
  obtain ⟨icons, same⟩ := rules _ _ none'
  obtain ⟨variants, same₁⟩ := byChange _ _ icons
  obtain ⟨aliases, same₂⟩ := byChange _ _ variants
  obtain ⟨imports, same₃⟩ := byRule _ _ aliases
  obtain ⟨-, same₄⟩ := byRule _ _ imports
  rw [same, same₁, same₂, same₃, same₄]

end Recast.Normalize
