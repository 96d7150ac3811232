import Recast.Generate.Component
import Recast.Proofs.Normalize.File
import Recast.Proofs.Normalize.Indent
import Recast.Proofs.Normalize.Source
import Recast.Proofs.Normalize.Svelte
import Recast.Proofs.Normalize.Vue
import Recast.Proofs.Runes.Upgrade

/-!
# Components of wrapped primitives

A component generated without normalization and the same component generated with it have files that
differ in the tags of primitives only, but for the scripts. Repairing takes both to the same markup.
-/

set_option autoImplicit false

namespace Recast.Normalize

open Recast.Text Recast.Repair Recast.Generate Recast.Markup

/-- How the target of the options writes attributes and guards. -/
def spellingOf (o : Options) (c : Component) : Spelling :=
  match o.target with
  | .svelte => Svelte.spelling ⟨c, metadataOf c, o.svelte.runes⟩
  | .vue => Vue.spelling ⟨c, metadataOf c⟩

/-! ## Generated files -/

/-- A generated component has a script with the attributes of its target. -/
structure Written (o : Options) (g : Generated) : Prop where
  script : ∃ attributes body, ScriptAttributes attributes ∧
    g.declarationBlock.toList = scriptText attributes body
  svelte : o.target = .svelte →
    g.declarationBlock = Generate.Svelte.script g.declarations o.svelte.runes o.typescript

/-- Two generated components with the same markup, but for the tags of primitives. -/
structure SameButTags (o : Options) (l r : Generated) : Prop where
  left : Written o l
  right : Written o r
  markup : Line o.target [] l.markupBlock r.markupBlock []

theorem Line.indent {target : Target} {l r : String} (h : Line target [] l r []) :
    Line target [] (indentLines l) (indentLines r) [] := by
  obtain ⟨ts, reads, dynamic, native⟩ := h
  refine ⟨shiftTokens .start ts, reads.shift .start, ?_, ?_⟩
  · rw [toList_indentLines, dynamic, shift_spell]
  · rw [toList_indentLines, native, shift_spell]

/-- What stands in the opening tag of a Vue script behind its name. -/
def setupAttributes (typescript : Bool) : List Char :=
  if typescript then " setup lang=\"ts\"".toList else " setup".toList

theorem setupAttributes_allowed (typescript : Bool) : ScriptAttributes (setupAttributes typescript) where
  quiet := by
    have checked : (setupAttributes typescript).all (fun c => c != '<' && c != '>') = true := by
      cases typescript <;> rfl
    intro c inside
    simpa using List.all_eq_true.mp checked c inside
  boundary := by cases typescript <;> rfl

theorem vueScript_eq (ds : List Declaration) (typescript : Bool) :
    ∃ body, (Generate.Vue.script ds typescript).toList = scriptText (setupAttributes typescript) body := by
  refine ⟨'\n' :: (join "\n\n" (Generate.Vue.sections ds)).toList ++ ['\n'], ?_⟩
  cases typescript <;> simp [Generate.Vue.script, setupAttributes, scriptText_eq]

theorem written_svelte {o : Options} {g : Generated}
    (block : g.declarationBlock = Generate.Svelte.script g.declarations o.svelte.runes o.typescript) :
    Written o g := by
  obtain ⟨body, shape⟩ := Runes.script_eq g.declarations o.svelte.runes o.typescript
  exact ⟨⟨_, body, Runes.scriptAttributes_allowed _, by rw [block, shape]⟩, fun _ => block⟩

theorem written_vue {o : Options} (vue : o.target = .vue) {g : Generated} {ds : List Declaration}
    (block : g.declarationBlock = Generate.Vue.script ds o.typescript) : Written o g := by
  obtain ⟨body, shape⟩ := vueScript_eq ds o.typescript
  refine ⟨⟨_, body, setupAttributes_allowed _, by rw [block, shape]⟩, fun svelte => ?_⟩
  rw [vue] at svelte
  exact absurd svelte (by simp)

section Generate

variable {c : Component} {o : Options} (fits : ForestRepairable (spellingOf o c) c (metadataOf c) c.root)

include fits

theorem svelteGenerate_alike (svelte : o.target = .svelte) :
    Alike (SameButTags o) (Generate.Svelte.generate c o)
      (Generate.Svelte.generate (nativeComponent c) o) := by
  have markups : Alike (fun l r => Line o.target [] l r [])
      (Generate.Svelte.markup ⟨c, metadataOf c, o.svelte.runes⟩ (markupOf c (metadataOf c)))
      (Generate.Svelte.markup ⟨nativeComponent c, metadataOf c, o.svelte.runes⟩
        (markupOf (nativeComponent c) (metadataOf c))) := by
    by_cases rootless : c.root = []
    · rw [nativeComponent_of_rootless rootless]
      exact Alike.refl (.same []) _
    · rw [spellingOf, svelte] at fits
      have rooted : markupOf c (metadataOf c) = c.root := by simp [markupOf, rootless]
      have rooted' : markupOf (nativeComponent c) (metadataOf c) = c.root.map normalize := by
        simp [markupOf, nativeComponent, rootless]
      rw [svelte, rooted, rooted']
      exact Svelte.markup_alike c (metadataOf c) o.svelte.runes _ fits
  exact markups.bind fun l r line => .ok ⟨written_svelte rfl, written_svelte rfl, line⟩

theorem vueGenerate_alike (vue : o.target = .vue) :
    Alike (SameButTags o) (Generate.Vue.generate c o) (Generate.Vue.generate (nativeComponent c) o) := by
  have templates : Alike (fun l r => Line o.target [] l r [])
      (Generate.Vue.template ⟨c, metadataOf c⟩ (markupOf c (metadataOf c)))
      (Generate.Vue.template ⟨nativeComponent c, metadataOf c⟩
        (markupOf (nativeComponent c) (metadataOf c))) := by
    by_cases rootless : c.root = []
    · rw [nativeComponent_of_rootless rootless]
      exact Alike.refl (.same []) _
    · rw [spellingOf, vue] at fits
      have rooted : markupOf c (metadataOf c) = c.root := by simp [markupOf, rootless]
      have rooted' : markupOf (nativeComponent c) (metadataOf c) = c.root.map normalize := by
        simp [markupOf, nativeComponent, rootless]
      rw [vue, rooted, rooted']
      exact Vue.template_alike c (metadataOf c) _ fits
  refine templates.bind fun l r line => .ok ⟨written_vue vue rfl, written_vue vue rfl, ?_⟩
  exact ((Line.same [] _).append line.indent).append (.same [] _)

theorem generate_alike :
    Alike (SameButTags o) (generate c o) (generate (nativeComponent c) o) := by
  rw [generate, generate]
  cases target : o.target with
  | svelte => exact svelteGenerate_alike fits target
  | vue => exact vueGenerate_alike fits target

end Generate

/-! ## Repairing generated files -/

def runesOf (o : Options) : Bool := o.target = .svelte && o.svelte.runes

/-- A generated file in which hooks find nothing but what generators write: the script closes at its
end and holds no dynamic tag, and with runes nothing in the markup has the older style. -/
structure Plain (o : Options) (g : Generated) : Prop where
  closes : ClosesAtEnd g.declarationBlock.toList
  script : Lacks (dynamicStarts o.target) g.declarationBlock.toList
  modern : runesOf o = true → recognizes Runes.slotElement g.markupBlock.toList = false ∧
    recognizes Runes.eventDirective g.markupBlock.toList = false ∧
    recognizes Runes.legacyRest g.markupBlock.toList = false

/-- The file of a generated component, upgraded if runes are asked for. -/
def upgradedFile (o : Options) (g : Generated) : String :=
  if runesOf o then Runes.upgrade g.assemble (some g.declarations) else g.assemble

theorem upgradedFile_eq {o : Options} {g : Generated} (written : Written o g) (plain : Plain o g) :
    upgradedFile o g = g.assemble := by
  cases runes : runesOf o with
  | false => rw [upgradedFile, runes, if_neg Bool.false_ne_true]
  | true =>
    obtain ⟨slots, events, rests⟩ := plain.modern runes
    have asked : o.target = .svelte ∧ o.svelte.runes = true := by simpa [runesOf] using runes
    have block := written.svelte asked.1
    rw [asked.2] at block
    rw [upgradedFile, runes, if_pos rfl]
    exact Runes.upgrade_runes block plain.closes slots events rests

def repairedFile (o : Options) (g : Generated) : List Char :=
  (repairMarkup (upgradedFile o g).toList o.target Catalog.primitiveTags (runesOf o)).text

theorem framed_spell {target : Target} {l r : String} (h : Line target [] l r []) :
    ∃ ts, Reads [] (ts ++ [Token.char '\n']) [] ∧ framed l.toList = spell target .dynamic (ts ++ [Token.char '\n']) ∧
      framed r.toList = spell target .native (ts ++ [Token.char '\n']) := by
  obtain ⟨ts, reads, dynamic, native⟩ := h
  refine ⟨"\n\n".toList.map .char ++ ts.rdropWhile Token.isBlank,
    ((Reads.chars [] _).append reads.rdropWhile).append (.char '\n' (.nil [])), ?_, ?_⟩
  · rw [framed, dynamic, dropEndWhile_spell, spell_append, spell_append, spell_chars, List.append_assoc]
    rfl
  · rw [framed, native, dropEndWhile_spell, spell_append, spell_append, spell_chars, List.append_assoc]
    rfl

/-- Repairing takes both files to the same markup behind their scripts. -/
theorem repairedFile_alike {o : Options} {l r : Generated} (same : SameButTags o l r)
    (plainL : Plain o l) (plainR : Plain o r)
    (absent : Lacks (reservedStarts o.target) (framed r.markupBlock.toList)) :
    ∃ markup, repairedFile o l = l.declarationBlock.toList ++ markup ∧
      repairedFile o r = r.declarationBlock.toList ++ markup := by
  obtain ⟨ts, reads, dynamic, native⟩ := framed_spell same.markup
  obtain ⟨attributes, body, allowed, block⟩ := same.left.script
  obtain ⟨attributes', body', allowed', block'⟩ := same.right.script
  have closes := plainL.closes
  have closes' := plainR.closes
  have script := plainL.script
  have script' := plainR.script
  rw [block] at closes script
  rw [block'] at closes' script'
  rw [native] at absent
  refine ⟨fixMarkup o.target (runesOf o) (spell o.target .native (ts ++ [Token.char '\n'])), ?_, ?_⟩
  · rw [repairedFile, upgradedFile_eq same.left plainL, toList_assemble block, block, dynamic]
    exact repairMarkup_dynamic allowed closes script _ reads absent
  · rw [repairedFile, upgradedFile_eq same.right plainR, toList_assemble block', block', native]
    exact repairMarkup_native allowed' closes' script' _ absent

def behindScript (code : String) : Option (List Char) :=
  (cutHit? scriptBlock code.toList).map fun found => found.2.2

theorem behindScript_append {o : Options} {g : Generated} (written : Written o g) (plain : Plain o g)
    (markup : List Char) :
    behindScript (String.ofList (g.declarationBlock.toList ++ markup)) = some markup := by
  obtain ⟨attributes, body, allowed, block⟩ := written.script
  have closes := plain.closes
  rw [block] at closes
  obtain ⟨inside, cut⟩ := cutHit?_scriptText allowed closes markup
  rw [behindScript, String.toList_ofList, block, cut]
  rfl

def cleanedFile (o : Options) (g : Generated) : Cleaned :=
  cleanImports (repairedFile o g) o.target (runesOf o)

end Recast.Normalize
