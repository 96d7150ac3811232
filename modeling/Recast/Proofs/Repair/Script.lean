import Recast.Generate.Generated
import Recast.Proofs.Text.Substitution
import Recast.Repair.Markup

/-!
# Files with one script

A generated file is a script and then markup. A script that holds no closing tag but its own is read
as one block, so the markup behind it is all that is changed outside of scripts.
-/

set_option autoImplicit false

namespace Recast.Repair

open Recast.Text

/-- A script whose first closing tag is its end. -/
def ClosesAtEnd (script : List Char) : Prop :=
  (cut? "</script>".toList script).map Prod.snd = some []

instance (script : List Char) : Decidable (ClosesAtEnd script) :=
  inferInstanceAs (Decidable (_ = _))

/-- What may stand in the opening tag of a script behind its name. -/
structure ScriptAttributes (attributes : List Char) : Prop where
  quiet : ∀ c ∈ attributes, c ≠ '<' ∧ c ≠ '>'
  boundary : attributes.head?.any isWord = false

/-- The text of a script with these attributes. -/
def scriptText (attributes body : List Char) : List Char :=
  "<script".toList ++ (attributes ++ '>' :: (body ++ "</script>".toList))

theorem scriptText_eq (attributes body : List Char) : scriptText attributes body =
    "<script".toList ++ (attributes ++ '>' :: (body ++ "</script>".toList)) := rfl

theorem scriptText_eq_concat (attributes body : List Char) :
    ∃ front, scriptText attributes body = front ++ ['>'] :=
  ⟨"<script".toList ++ (attributes ++ '>' :: (body ++ "</script".toList)), by simp [scriptText_eq]⟩

/-- A text that is read as one script block: its opening tag ends at the first bracket, and its body at the
first closing tag. -/
structure IsScript (attributes body : List Char) : Prop where
  boundary : attributes.head?.any isWord = false
  opens : '>' ∉ attributes
  closes : cut? "</script>".toList (body ++ "</script>".toList) = some (body, [])

theorem scriptBlock_eq_some {p : Option Char} {cs rest : List Char} {value : List Char × List Char × List Char}
    (found : scriptBlock p cs = some (value, rest)) :
    ∃ attributes body, IsScript attributes body ∧ cs = scriptText attributes body ++ rest := by
  simp only [scriptBlock, Option.bind_eq_bind, Option.bind_eq_some_iff, Option.guard_eq_some'] at found
  obtain ⟨inside, start, -, boundary, ⟨attributes, behind⟩, opening, ⟨body, rest'⟩, closing, result⟩ := found
  simp only [Option.pure_def, Option.some.injEq, Prod.mk.injEq] at result
  obtain ⟨-, rfl⟩ := result
  obtain rfl := cut?_eq_some opening
  obtain rfl := cut?_eq_some closing
  refine ⟨attributes, body, ⟨?_, not_mem_of_cut?_singleton opening, cut?_of_append (by decide) closing⟩, ?_⟩
  · cases attributes with
    | nil => rfl
    | cons c attributes => simpa using boundary
  · rw [after?_eq_some_iff.mp start]
    simp [scriptText_eq]

/-- A script is read as one block, whatever follows. -/
theorem IsScript.scriptBlock_append {attributes body : List Char} (script : IsScript attributes body)
    (p : Option Char) (back : List Char) : scriptBlock p (scriptText attributes body ++ back) =
      some (("<script".toList ++ attributes ++ ['>'], body, "</script>".toList), back) := by
  have boundary : (attributes ++ '>' :: (body ++ "</script>".toList ++ back)).head?.any isWord =
      false := by
    cases attributes with
    | nil => rfl
    | cons c attributes => exact script.boundary
  have closed := cut?_append script.closes (by decide) back
  rw [List.nil_append] at closed
  have text : scriptText attributes body ++ back =
      "<script".toList ++ (attributes ++ '>' :: (body ++ "</script>".toList ++ back)) := by
    simp [scriptText_eq]
  rw [text]
  simp only [scriptBlock, after?_append, boundary, cut?_singleton_append script.opens, closed,
    Bool.not_false, guard_true, Option.pure_def, Option.bind_eq_bind, Option.bind_some]

/-- A script that closes at its end is one block, since its opening tag holds no other tag. -/
theorem isScript_of_closesAtEnd {attributes body : List Char} (allowed : ScriptAttributes attributes)
    (closes : ClosesAtEnd (scriptText attributes body)) : IsScript attributes body := by
  have tag : '<' ∉ "script".toList ++ (attributes ++ ['>']) := by
    simp only [List.mem_append, List.mem_singleton, not_or]
    exact ⟨by decide, fun inside => (allowed.quiet _ inside).1 rfl, by decide⟩
  have text : scriptText attributes body =
      '<' :: (("script".toList ++ (attributes ++ ['>'])) ++ (body ++ "</script>".toList)) := by
    simp [scriptText_eq]
  have first : after? "</script>".toList ('<' :: (("script".toList ++ (attributes ++ ['>'])) ++
      (body ++ "</script>".toList))) = none := rfl
  have skipped : cut? "</script>".toList
      (("script".toList ++ (attributes ++ ['>'])) ++ (body ++ "</script>".toList)) = _ :=
    cut?_append_of_not_mem (p := "/script>".toList) tag (body ++ "</script>".toList)
  rw [ClosesAtEnd, text, cut?, first] at closes
  simp only [skipped, Option.map_map, Option.map_eq_some_iff] at closes
  obtain ⟨⟨inside, rest⟩, found, behind⟩ := closes
  obtain rfl : rest = [] := behind
  have same := cut?_eq_some found
  rw [List.append_nil] at same
  obtain rfl : body = inside := List.append_cancel_right same
  exact ⟨allowed.boundary, fun bracket => (allowed.quiet _ bracket).2 rfl, found⟩

theorem IsScript.cutHit?_append {attributes body : List Char} (script : IsScript attributes body) (back : List Char) :
    cutHit? scriptBlock (scriptText attributes body ++ back) =
      some ([], ("<script".toList ++ attributes ++ ['>'], body, "</script>".toList), back) := by
  have block := script.scriptBlock_append none back
  have nonempty : scriptText attributes body ++ back ≠ [] := by simp [scriptText_eq]
  obtain ⟨c, rest, shape⟩ := List.exists_cons_of_ne_nil nonempty
  rw [shape] at block ⊢
  rw [cutHit?, cutHitFrom?, block]

/-- The script block of a file is its script. -/
theorem cutHit?_scriptText {attributes body : List Char} (allowed : ScriptAttributes attributes)
    (closes : ClosesAtEnd (scriptText attributes body)) (back : List Char) :
    ∃ inside, cutHit? scriptBlock (scriptText attributes body ++ back) =
      some ([], ("<script".toList ++ attributes ++ ['>'], inside, "</script>".toList), back) :=
  ⟨body, (isScript_of_closesAtEnd allowed closes).cutHit?_append back⟩

/-- A file that starts with a script starts with a script block, though it may end inside of the script. -/
theorem exists_cutHit?_scriptText {attributes : List Char} (allowed : ScriptAttributes attributes) (body back : List Char) :
    ∃ inside rest, cutHit? scriptBlock (scriptText attributes body ++ back) =
      some ([], ("<script".toList ++ attributes ++ ['>'], inside, "</script>".toList), rest) := by
  have closing : occurs "</script>".toList (body ++ ("</script>".toList ++ back)) = true :=
    occurs_iff.mpr ⟨body, back, by simp⟩
  obtain ⟨⟨inside, rest⟩, cut⟩ := Option.isSome_iff_exists.mp closing
  have script : IsScript attributes inside :=
    ⟨allowed.boundary, fun bracket => (allowed.quiet _ bracket).2 rfl, cut?_of_append (by decide) (cut?_eq_some cut ▸ cut)⟩
  have text : scriptText attributes body ++ back = scriptText attributes inside ++ rest := by
    simp only [scriptText_eq, List.append_assoc, List.cons_append]
    rw [cut?_eq_some cut]
  exact ⟨inside, rest, by rw [text, script.cutHit?_append]⟩

theorem segmentsFrom_of_silent {α : Type} {rule : Rule α} {p : Option Char} {text : List Char}
    (nonempty : text ≠ []) (silent : Silent rule p text []) :
    segmentsFrom rule 0 p text = [.plain text] := by
  induction text generalizing p with
  | nil => exact absurd rfl nonempty
  | cons c text ih =>
    have here := silent.1
    rw [List.append_nil] at here
    rw [segmentsFrom_of_none here]
    cases text with
    | nil => rfl
    | cons d text => rw [ih (by simp) silent.2, pushPlain]

/-- A change outside of scripts changes the markup behind the script as a whole. -/
theorem outsideScripts_scriptText {attributes body : List Char}
    (allowed : ScriptAttributes attributes) (closes : ClosesAtEnd (scriptText attributes body))
    (f : List Char → List Char) {markup : List Char} (nonempty : markup ≠ [])
    (silent : ∀ p, Silent scriptBlock p markup []) :
    outsideScripts f (scriptText attributes body ++ markup) = scriptText attributes body ++ f markup := by
  have block := (isScript_of_closesAtEnd allowed closes).scriptBlock_append none markup
  rw [outsideScripts, segments, segmentsFrom_of_some (by simp [scriptText_eq]) block,
    segmentsFrom_of_silent nonempty (silent _)]
  simp

/-- What stands between the script and the end of a file with this markup. -/
def framed (text : List Char) : List Char := "\n\n".toList ++ (dropEndWhile isBlank text ++ ['\n'])

theorem toList_assemble {g : Generate.Generated} {attributes body : List Char}
    (block : g.declarationBlock.toList = scriptText attributes body) :
    g.assemble.toList = g.declarationBlock.toList ++ framed g.markupBlock.toList := by
  obtain ⟨front, last⟩ := scriptText_eq_concat attributes body
  have trimmed : dropEndWhile isBlank g.declarationBlock.toList = g.declarationBlock.toList := by
    rw [block, last]
    exact dropEndWhile_append_singleton_of_neg (by decide) _
  rw [Generate.Generated.assemble, framed]
  simp [stripEnd, trimmed]

end Recast.Repair
