import Recast.Proofs.Repair.Script
import Recast.Proofs.Repair.TagTokens
import Recast.Proofs.Text.InOrder

/-!
# Scripts that a repair keeps

The fixes of the markup leave scripts alone, but the substitution of native tags goes before them and reads the
text as a whole. A tag in a script is rewritten like any other. A script that no rewritten tag overlaps stands in
the repaired text as before, whatever the rewritten tags in front of it have become. Only if its opening tag holds
a closing tag may it be cut short, by a script that a rewritten tag starts in front of it.
-/

set_option autoImplicit false

namespace Recast.Repair

open Recast.Text

/-! ## Scripts in a scan -/

section Scan

variable {attributes body attributes' body' : List Char}

theorem IsScript.cut?_body (script : IsScript attributes body) (back : List Char) :
    cut? "</script>".toList (body ++ ("</script>".toList ++ back)) = some (body, back) := by
  rw [← List.append_assoc]
  exact cut?_append script.closes (by decide) back

/-- Two scripts whose opening tags end at one bracket end at one closing tag. -/
theorem IsScript.rest_unique (script : IsScript attributes body) (script' : IsScript attributes' body')
    {front back rest : List Char} (quiet : '>' ∉ front)
    (same : front ++ '>' :: (body ++ ("</script>".toList ++ back)) =
      attributes' ++ '>' :: (body' ++ ("</script>".toList ++ rest))) : rest = back := by
  have behind := (append_cons_inj_of_not_mem quiet script'.opens same).2
  have cut := script.cut?_body back
  rw [behind, script'.cut?_body] at cut
  simp only [Option.some.injEq, Prod.mk.injEq] at cut
  exact cut.2

/-- A closing tag that is found from a place in front of a script ends in front of it or is its own. -/
theorem rest_of_closing {gap back inside rest : List Char} (closes : ClosesAtEnd (scriptText attributes body))
    (found : cut? "</script>".toList (gap ++ (scriptText attributes body ++ back)) = some (inside, rest)) :
    rest = back ∨ ∃ gap', rest = gap' ++ (scriptText attributes body ++ back) := by
  obtain ⟨⟨whole, behind⟩, own, rfl⟩ := Option.map_eq_some_iff.mp closes
  have own' := cut?_append own (by decide) back
  rw [List.nil_append] at own'
  have split : cut? "</script>".toList (gap ++ (scriptText attributes body ++ back)) = _ :=
    cut?_append_cons (c := '<') (p := "/script>".toList) (by decide) gap
      ("script".toList ++ (attributes ++ '>' :: (body ++ "</script>".toList)) ++ back)
  rw [split, Option.or_eq_some_iff] at found
  rcases found with first | ⟨-, later⟩
  · obtain ⟨⟨front, gap'⟩, -, found⟩ := Option.map_eq_some_iff.mp first
    exact .inr ⟨gap', (congrArg Prod.snd found).symm⟩
  · obtain ⟨_, cut, found⟩ := Option.map_eq_some_iff.mp later
    obtain rfl := Option.some.inj (own'.symm.trans cut)
    exact .inl (congrArg Prod.snd found).symm

/-- A script is found from its own start or from a place in front of it where no bracket follows. What is found
from any other place in front of it ends in front of it or at its end. -/
theorem rest_of_scriptBlock {p : Option Char} {gap back rest : List Char}
    {value : List Char × List Char × List Char} (script : IsScript attributes body)
    (closes : ClosesAtEnd (scriptText attributes body))
    (found : scriptBlock p (gap ++ (scriptText attributes body ++ back)) = some (value, rest)) :
    rest = back ∨ ∃ gap', rest = gap' ++ (scriptText attributes body ++ back) := by
  obtain ⟨attributes', body', script', whole⟩ := scriptBlock_eq_some found
  have text (front : List Char) : front ++ (scriptText attributes body ++ back) =
      (front ++ ("<script".toList ++ attributes)) ++ '>' :: (body ++ ("</script>".toList ++ back)) := by
    simp [scriptText_eq]
  have text' : scriptText attributes' body' ++ rest =
      "<script".toList ++ (attributes' ++ '>' :: (body' ++ ("</script>".toList ++ rest))) := by
    simp [scriptText_eq]
  rw [text'] at whole
  cases gap with
  | nil =>
    rw [text, List.nil_append, List.append_assoc] at whole
    exact .inl (script.rest_unique script' script.opens (List.append_cancel_left whole))
  | cons c gap =>
    obtain ⟨gap, rfl, inside⟩ : ∃ g, gap = "script".toList ++ g ∧ g ++ (scriptText attributes body ++ back) =
        attributes' ++ '>' :: (body' ++ ("</script>".toList ++ rest)) := by
      rw [List.cons_append] at whole
      exact append_eq_of_not_mem (by decide) (List.cons.inj whole).2
    by_cases bracket : '>' ∈ gap
    · obtain ⟨front, gap, rfl, quiet⟩ := List.eq_append_cons_of_mem bracket
      rw [List.append_assoc, List.cons_append] at inside
      have behind := (append_cons_inj_of_not_mem quiet script'.opens inside).2
      exact rest_of_closing closes (behind ▸ script'.cut?_body rest)
    · rw [text] at inside
      refine .inl (script.rest_unique script' ?_ inside)
      simp [bracket, script.opens]

/-- A script block whose first closing tag is its end. -/
def IsPlainScript (block : List Char) : Prop :=
  ClosesAtEnd block ∧ ∃ attributes body, IsScript attributes body ∧ block = scriptText attributes body

/-- Each of the scripts that stand in a text ends a block of its own when the text is scanned. -/
theorem suffixes_hitTexts {blocks : List (List Char)} {text : List Char} (inOrder : StandInOrder blocks text)
    (plain : ∀ block ∈ blocks, IsPlainScript block) (p : Option Char) :
    List.SublistForall₂ (· <:+ ·) blocks (hitTexts (segmentsFrom scriptBlock 0 p text)) := by
  -- a scan that finds a block goes on behind it, so the induction is on the length of the text
  induction len : text.length using Nat.strong_induction_on generalizing text blocks p with
  | _ n ih =>
    subst len
    cases inOrder with
    | nil => exact .nil
    | @cons gap block back blocks inOrder =>
      obtain ⟨⟨closes, attributes, body, script, rfl⟩, plain'⟩ := List.forall_mem_cons.mp plain
      cases found : scriptBlock p (gap ++ (scriptText attributes body ++ back)) with
      | none =>
        cases gap with
        | nil =>
          rw [List.nil_append, script.scriptBlock_append] at found
          cases found
        | cons c gap =>
          rw [List.cons_append] at found ⊢
          rw [segmentsFrom_of_none found, hitTexts_pushPlain]
          exact ih _ (by simp) (.cons inOrder) plain _ rfl
      | some result =>
        obtain ⟨value, rest⟩ := result
        obtain ⟨attributes', body', -, whole⟩ := scriptBlock_eq_some found
        have solid : scriptText attributes' body' ≠ [] := by simp [scriptText_eq]
        have shorter : rest.length < (gap ++ (scriptText attributes body ++ back)).length := by
          rw [whole, List.length_append]
          have positive := List.length_pos_of_ne_nil solid
          omega
        have next := rest_of_scriptBlock script closes found
        rw [whole] at found ⊢
        rw [segmentsFrom_of_some solid found, hitTexts_cons_hit]
        rcases next with rfl | ⟨gap', rfl⟩
        · rw [← List.append_assoc] at whole
          exact .cons ⟨gap, List.append_cancel_right whole⟩ (ih _ shorter inOrder plain' _ rfl)
        · exact .cons_right (ih _ shorter (.cons inOrder) plain _ rfl)

/-- A change outside of scripts keeps the scripts that stand in a text. -/
theorem standInOrder_outsideScripts {blocks : List (List Char)} {text : List Char}
    (inOrder : StandInOrder blocks text) (plain : ∀ block ∈ blocks, IsPlainScript block)
    (f : List Char → List Char) : StandInOrder blocks (outsideScripts f text) :=
  (standInOrder_hitTexts (fun _ _ => rfl) _).of_suffixes (suffixes_hitTexts inOrder plain none)

end Scan

theorem consumes_scriptBlock : Consumes scriptBlock := by
  intro p cs value rest found
  obtain ⟨attributes, body, -, shape⟩ := scriptBlock_eq_some found
  exact ⟨_, by simp [scriptText_eq], shape⟩

theorem exists_isScript_of_mem_hitTexts {block text : List Char}
    (member : block ∈ hitTexts (segments scriptBlock text)) :
    ∃ attributes body, IsScript attributes body ∧ block = scriptText attributes body := by
  obtain ⟨value, hit⟩ := mem_hitTexts member
  obtain ⟨-, p, rest, found⟩ := rule_of_hit_mem consumes_scriptBlock hit
  obtain ⟨attributes, body, script, shape⟩ := scriptBlock_eq_some found
  exact ⟨attributes, body, script, List.append_cancel_right shape⟩

/-! ## Scripts in a substitution -/

/-- The texts of tokens and what is written for them. -/
def editsOf (target : Target) (parts : List (TagToken × List Char)) : List (List Char × List Char) :=
  parts.map fun part => (part.1.text target, part.2)

/-- The first closing tag of a script is its end, and no token overlaps the script that is not written as it
stands. -/
structure IsKept (target : Target) (parts : List (TagToken × List Char)) (text : List Char)
    (script : Found (List Char × List Char × List Char)) : Prop where
  closes : ClosesAtEnd (script.text text)
  apart : ∀ change ∈ changesFrom 0 (editsOf target parts), script.stop ≤ change.1 ∨ change.2 ≤ script.start

instance (target : Target) (parts : List (TagToken × List Char)) (text : List Char)
    (script : Found (List Char × List Char × List Char)) : Decidable (IsKept target parts text script) :=
  decidable_of_iff (_ ∧ _) ⟨fun h => ⟨h.1, h.2⟩, fun h => ⟨h.1, h.2⟩⟩

section Substituted

variable {target : Target} {table : Assoc String} {text : List Char} {result : Repaired}
  {parts : List (TagToken × List Char)}

theorem changesFrom_editsOf_lt {n : Nat} {change : Nat × Nat} (member : change ∈ changesFrom n (editsOf target parts)) :
    change.1 < change.2 := by
  refine changesFrom_lt (fun edit inside => ?_) member
  obtain ⟨part, -, rfl⟩ := List.mem_map.mp inside
  exact TagToken.text_ne_nil target part.1

theorem Cut.edits {before : List TagToken} (cut : Cut target table before text result parts) :
    (editsOf target parts).flatMap Prod.fst = text ∧ (editsOf target parts).flatMap Prod.snd = result.text := by
  rw [editsOf, List.flatMap_map, List.flatMap_map]
  exact ⟨by rw [← cut.input, List.flatMap_map], cut.output⟩

/-- The substitution leaves the kept scripts in the text, in their order. -/
theorem Cut.standInOrder (cut : Cut target table [] text result parts) :
    StandInOrder (((found scriptBlock text).filter (IsKept target parts text)).map (Found.text text)) result.text := by
  obtain ⟨input, output⟩ := cut.edits
  have whole : (editsOf target parts).flatMap Prod.fst =
      [] ++ (segments scriptBlock text).flatMap Segment.text := by
    rw [input, List.nil_append, flatMap_text_segments]
  have kept := standInOrder_of_apart (fun script => IsKept target parts text script) [] [] whole
    (fun _ => changesFrom_editsOf_lt) fun script isKept => (of_decide_eq_true isKept).apart
  rwa [input, output] at kept

end Substituted

/-- A repair keeps the scripts that hold no closing tag but their last and that no rewritten tag overlaps, in their
order. A repair that rewrites no tag keeps all scripts. -/
theorem scripts_kept (text : List Char) (target : Target) (table : Assoc String) (runes : Bool) :
    let result := repairMarkup text target table runes
    let scripts := found scriptBlock text
    (∃ parts, Cut target table [] text (substituteTags text target table) parts ∧
      StandInOrder ((scripts.filter (IsKept target parts text)).map (Found.text text)) result.text) ∧
    (result.replaced = 0 → StandInOrder (scripts.map (Found.text text)) result.text) := by
  refine ⟨?_, fun nothing => ?_⟩
  · obtain ⟨parts, cut⟩ : ∃ parts, Cut target table [] text (substituteTags text target table) parts :=
      exists_cut text []
    refine ⟨parts, cut, standInOrder_outsideScripts cut.standInOrder (fun block member => ?_) _⟩
    obtain ⟨script, kept, rfl⟩ := List.mem_map.mp member
    obtain ⟨inside, isKept⟩ := List.mem_filter.mp kept
    have hit : script.text text ∈ hitTexts (segments scriptBlock text) := by
      rw [← map_text_found]
      exact List.mem_map_of_mem inside
    exact ⟨(of_decide_eq_true isKept).closes, exists_isScript_of_mem_hitTexts hit⟩
  · have unknown := (substituteTags_replaced_eq_zero_iff target table text).mp nothing
    have same := substituteTags_text_of_unknown unknown
    rw [map_text_found, repairMarkup, same]
    exact standInOrder_hitTexts (fun _ _ => rfl) _

-- the script holds a tag as text, and the tag is rewritten
example :
    repairMarkup "<script>'<component :is=\"Box\"/>'</script>".toList .vue [("Box", "br")] true =
      ⟨"<script>'<br />'</script>".toList, 1, 0⟩ := by
  decide +kernel

-- a name that is taken out of a tag leaves the start of a script, which ends in the opening tag of the next one
example :
    repairMarkup "<component <scr :is=\"Box\"ipt><script </script></br></script>".toList .vue [("Box", "p")] true =
      ⟨"<p <script><script </script></script>".toList, 1, 0⟩ := by
  decide +kernel

end Recast.Repair
