import Recast.Plugin.Builtin
import Recast.Proofs.Repair.Script
import Recast.Proofs.Runes.Markup

/-!
# Upgrading generated components

There are two ways to a component with runes: to generate it so, or to generate it in the older style
and to upgrade it. `svelteRunes_assemble` says that they lead to the same file. The script is written
anew from its declarations, which do not depend on the style, and the markup of the two styles are
twins.
-/

set_option autoImplicit false

namespace Recast.Runes

open Recast.Text Recast.Generate Recast.Generate.Svelte Recast.Markup
open Recast.Repair (ClosesAtEnd ScriptAttributes scriptText scriptText_eq scriptBlock
  cutHit?_scriptText framed toList_assemble)

/-! ## The markup of a component -/

theorem forestLines_alike (c : Component) (m : Metadata) (nodes : List Node) (rootAhead : Bool)
    (keys : ForestHasEventKeys nodes) :
    Alike TwinLines (forestLines (olderSetting c m) rootAhead nodes)
      (forestLines (runesSetting c m) rootAhead nodes) := by
  induction nodes generalizing rootAhead with
  | nil => exact .ok .nil
  | cons n ns ih =>
    have first : ForestHasEventKeys [n] := fun h cs member =>
      keys h cs (by simp_all [Node.preorderList])
    have more : ForestHasEventKeys ns := fun h cs member =>
      keys h cs (by simp [Node.preorderList, member])
    rw [forestLines, forestLines]
    refine (nodeLines_alike c m n rootAhead 0 first).bind fun ls rs here => ?_
    exact (ih _ more).bind fun ls' rs' related => .ok (here.append related)

theorem join_twins (sep : String) {ls rs : List String} (h : TwinLines ls rs) :
    Twins (join sep ls).toList (join sep rs).toList := by
  induction h with
  | nil => exact .same _
  | @cons l r ls rs first more ih =>
    cases more with
    | nil => exact first
    | cons second more =>
      simpa [join] using (first.append (.same sep.toList)).append ih

theorem markup_alike (c : Component) (m : Metadata) {nodes : List Node}
    (keys : ForestHasEventKeys nodes) :
    Alike (fun l r => Twins l.toList r.toList) (markup (olderSetting c m) nodes)
      (markup (runesSetting c m) nodes) := by
  rw [markup, markup]
  exact (forestLines_alike c m nodes true keys).bind fun ls rs related => .ok (join_twins _ related)

/-- A root that is made up listens to nothing. -/
theorem markupOf_hasEventKeys {c : Component} (m : Metadata) (keys : ForestHasEventKeys c.root) :
    ForestHasEventKeys (markupOf c m) := by
  rw [markupOf]
  split
  · intro h cs member entry bound isEvent
    simp only [fallbackRoot, Node.preorderList, Node.preorder, List.append_nil, List.mem_singleton,
      Node.element.injEq] at member
    rw [member.1] at bound
    simp only [List.mem_append, List.mem_map, List.mem_singleton] at bound
    rcases bound with (bound | ⟨_, _, rfl⟩) | rfl
    · split at bound
      · obtain rfl := List.mem_singleton.mp bound
        exact absurd isEvent (by simp)
      · simp at bound
    · exact absurd isEvent (by simp)
    · exact absurd isEvent (by simp)
  · exact keys

/-! ## The file of a component -/

/-- What stands in the opening tag of a script behind its name. -/
def scriptAttributes (typescript : Bool) : List Char :=
  if typescript then " lang=\"ts\"".toList else []

theorem scriptAttributes_allowed (typescript : Bool) :
    ScriptAttributes (scriptAttributes typescript) where
  quiet := by
    have checked : (scriptAttributes typescript).all (fun c => c != '<' && c != '>') = true := by
      cases typescript <;> rfl
    intro c inside
    simpa using List.all_eq_true.mp checked c inside
  boundary := by cases typescript <;> rfl

theorem script_eq (ds : List Declaration) (runes typescript : Bool) :
    ∃ body, (script ds runes typescript).toList = scriptText (scriptAttributes typescript) body := by
  refine ⟨'\n' :: (indentLines (join "\n\n" (sections (sortDeclarations ds) runes typescript))).toList
    ++ ['\n'], ?_⟩
  cases typescript <;> simp [script, scriptAttributes, scriptText_eq]

/-- The script block of a file is its script, if the script closes at its end only. -/
theorem cutHit?_script {ds : List Declaration} {runes typescript : Bool}
    (closes : ClosesAtEnd (script ds runes typescript).toList) (back : List Char) :
    ∃ body, cutHit? scriptBlock ((script ds runes typescript).toList ++ back) =
      some ([], ("<script".toList ++ scriptAttributes typescript ++ ['>'], body,
        "</script>".toList), back) := by
  obtain ⟨body, shape⟩ := script_eq ds runes typescript
  rw [shape] at closes ⊢
  exact cutHit?_scriptText (scriptAttributes_allowed typescript) closes back

theorem occurs_lang (typescript : Bool) :
    occurs "lang=\"ts\"".toList ("<script".toList ++ scriptAttributes typescript ++ ['>']) =
      typescript := by
  cases typescript <;> rfl

/-! ## Blanks around markup -/

/-- A rule for which it does not matter which blanks a text ends with, and which finds nothing that
starts with a blank. -/
structure IgnoresBlanks (rule : Rule (List Char)) : Prop where
  blank : ∀ {c : Char}, isBlank c = true → ∀ p cs, rule p (c :: cs) = none
  start : ∀ {c : Char}, isBlank c = true → ∀ cs, rule (some c) cs = rule none cs
  ending : ∀ {p : Option Char} {text blanks blanks' : List Char},
    (∀ c ∈ blanks, isBlank c = true) → (∀ c ∈ blanks', isBlank c = true) →
    rule p (text ++ blanks) = none → rule p (text ++ blanks') = none

/-- What ends with a character that is no blank does not reach into the blanks at the end. -/
theorem append_eq_append_of_blanks {text blanks front rest : List Char} {c : Char}
    (all : ∀ d ∈ blanks, isBlank d = true) (last : isBlank c = false)
    (h : text ++ blanks = front ++ c :: rest) : ∃ more, text = front ++ c :: more := by
  rw [List.append_cons] at h
  rcases List.append_eq_append_iff.mp h with ⟨more, whole, split⟩ | ⟨more, rfl, _⟩
  · cases more using List.reverseRecOn with
    | nil => exact ⟨[], by simpa using whole.symm⟩
    | append_singleton more d =>
      rw [← List.append_assoc] at whole
      obtain ⟨-, same⟩ := List.append_inj' whole rfl
      have inBlanks : c ∈ blanks := by
        rw [split, List.singleton_inj.mp same]
        simp
      exact absurd (all c inBlanks) (by simp [last])
  · exact ⟨more, by simp⟩

theorem silent_ending {rule : Rule (List Char)} (ignores : IgnoresBlanks rule) {p : Option Char}
    {text blanks blanks' : List Char} (all : ∀ c ∈ blanks, isBlank c = true)
    (all' : ∀ c ∈ blanks', isBlank c = true) (silent : Silent rule p text blanks) :
    Silent rule p text blanks' := by
  induction text generalizing p with
  | nil => trivial
  | cons c text ih =>
    have here : rule p ((c :: text) ++ blanks) = none := silent.1
    exact ⟨ignores.ending all all' here, ih silent.2⟩

theorem silent_start {rule : Rule (List Char)} (ignores : IgnoresBlanks rule) {c : Char}
    (blank : isBlank c = true) {text rest : List Char} (silent : Silent rule none text rest) :
    Silent rule (some c) text rest := by
  cases text with
  | nil => trivial
  | cons d text => exact ⟨by rw [ignores.start blank]; exact silent.1, silent.2⟩

theorem silent_blanks {rule : Rule (List Char)} (ignores : IgnoresBlanks rule) {blanks : List Char}
    (all : ∀ c ∈ blanks, isBlank c = true) (p : Option Char) (rest : List Char) :
    Silent rule p blanks rest :=
  silent_of_forall (fun c hc q cs => ignores.blank (all c hc) q cs) p rest

/-- A rule that finds nothing in markup finds nothing in it with other blanks around it. -/
theorem silent_framed {rule : Rule (List Char)} (ignores : IgnoresBlanks rule) {text : List Char}
    (silent : Silent rule none text []) : Silent rule none (framed text) [] := by
  have whole : dropEndWhile isBlank text ++ text.rtakeWhile isBlank = text :=
    List.rdropWhile_append_rtakeWhile
  have blanks : ∀ c ∈ text.rtakeWhile isBlank, isBlank c = true := fun c hc =>
    List.mem_rtakeWhile_imp hc
  rw [← whole] at silent
  have trimmed : Silent rule none (dropEndWhile isBlank text) (text.rtakeWhile isBlank ++ []) :=
    ((silent_append rule none _ _ []).mp silent).1
  have ended : Silent rule none (dropEndWhile isBlank text) ['\n'] :=
    silent_ending ignores (by simpa using blanks) (List.all_eq_true.mp rfl) trimmed
  refine (silent_append rule none _ _ []).mpr
    ⟨silent_blanks ignores (List.all_eq_true.mp rfl) _ _, ?_⟩
  refine (silent_append rule _ _ _ []).mpr
    ⟨?_, silent_blanks ignores (List.all_eq_true.mp rfl) _ _⟩
  exact silent_start ignores (by decide) ended

theorem slotElement_ignoresBlanks : IgnoresBlanks slotElement where
  blank := by
    intro c blank p cs
    refine slotElement_eq_none_of_ne ?_ p cs
    rintro rfl
    exact absurd blank (by decide)
  start _ _ := rfl
  ending := by
    intro p text blanks blanks' all all' silent
    by_contra found
    obtain ⟨⟨new, rest⟩, found⟩ := Option.ne_none_iff_exists'.mp found
    obtain ⟨inside, allInside, shape⟩ := slotElement_eq_some found
    obtain ⟨more, rfl⟩ : ∃ more, text = ("<slot".toList ++ (inside ++ ['/'])) ++ '>' :: more :=
      append_eq_append_of_blanks all' (by decide) (by simpa using shape)
    have other := slotElement_spelled p allInside (more ++ blanks)
    simp only [List.append_assoc, List.cons_append, List.nil_append] at silent
    exact absurd (silent.symm.trans other) (by simp)

theorem eventDirective_ignoresBlanks : IgnoresBlanks eventDirective where
  blank := by
    intro c blank p cs
    refine eventDirective_eq_none_of_ne ?_ p cs
    rintro rfl
    exact absurd blank (by decide)
  start := by
    intro c blank cs
    simp [eventDirective, isWord_eq_false_of_isBlank blank]
  ending := by
    intro p text blanks blanks' all all' silent
    by_contra found
    obtain ⟨⟨new, rest⟩, found⟩ := Option.ne_none_iff_exists'.mp found
    obtain ⟨boundary, event, nonempty, word, shape⟩ := eventDirective_eq_some found
    obtain ⟨more, rfl⟩ : ∃ more, text = ("on:".toList ++ event) ++ '=' :: more :=
      append_eq_append_of_blanks all' (by decide) (by simpa using shape)
    have other := eventDirective_spelled boundary nonempty word (more ++ blanks)
    simp only [List.append_assoc, List.cons_append] at silent
    exact absurd (silent.symm.trans other) (by simp)

theorem head?_any_isWord_append {text blanks : List Char} (all : ∀ c ∈ blanks, isBlank c = true) :
    (text ++ blanks).head?.any isWord = text.head?.any isWord := by
  cases text with
  | cons c text => rfl
  | nil =>
    cases blanks with
    | nil => rfl
    | cons c blanks => simpa using isWord_eq_false_of_isBlank (all c (by simp))

theorem legacyRest_ignoresBlanks : IgnoresBlanks legacyRest where
  blank := by
    intro c blank p cs
    refine legacyRest_eq_none_of_ne ?_ p cs
    rintro rfl
    exact absurd blank (by decide)
  start _ _ := rfl
  ending := by
    intro p text blanks blanks' all all' silent
    by_contra found
    obtain ⟨⟨new, rest⟩, found⟩ := Option.ne_none_iff_exists'.mp found
    obtain ⟨name, known, shape, boundary⟩ := legacyRest_eq_some found
    have ends : ∃ front, name = front ++ ['s'] := by
      simp only [legacyNames, List.mem_cons, List.not_mem_nil, or_false] at known
      rcases known with rfl | rfl
      · exact ⟨"$$restProp".toList, rfl⟩
      · exact ⟨"$$prop".toList, rfl⟩
    obtain ⟨front, rfl⟩ := ends
    rw [← List.append_cons] at shape
    obtain ⟨more, rfl⟩ := append_eq_append_of_blanks all' (by decide) shape
    obtain rfl : more ++ blanks' = rest := by simpa using shape
    rw [head?_any_isWord_append all'] at boundary
    have boundary' : (more ++ blanks).head?.any isWord = false := by
      rwa [head?_any_isWord_append all]
    have other := legacyRest_spelled p known boundary'
    rw [← List.append_cons] at other
    simp only [List.append_assoc, List.cons_append] at silent
    exact absurd (silent.symm.trans other) (by simp)

/-! ## The two ways -/

/-- What two components have in common that are generated alike but for their style. -/
structure SameButStyle (typescript : Bool) (l r : Generated) : Prop where
  declarations : r.declarations = l.declarations
  olderScript : l.declarationBlock = script l.declarations false typescript
  runesScript : r.declarationBlock = script l.declarations true typescript
  markup : Twins l.markupBlock.toList r.markupBlock.toList

/-- Both styles fail with the same report, or give components that differ in their style only. -/
theorem generate_alike (c : Component) (o : Options) {older newer : SvelteOptions}
    (isOlder : older.runes = false) (isNewer : newer.runes = true) (keys : ForestHasEventKeys c.root) :
    Alike (SameButStyle o.typescript) (Svelte.generate c { o with svelte := older })
      (Svelte.generate c { o with svelte := newer }) := by
  have twins := markup_alike c (metadataOf c) (markupOf_hasEventKeys (metadataOf c) keys)
  simp only [Svelte.generate, isOlder, isNewer]
  refine twins.bind fun l r related => .ok ⟨?_, ?_, ?_, related⟩
  · rfl
  · rfl
  · rfl

theorem toList_assemble_script {g : Generated} {ds : List Declaration} {runes typescript : Bool}
    (block : g.declarationBlock = script ds runes typescript) :
    g.assemble.toList = (script ds runes typescript).toList ++ framed g.markupBlock.toList := by
  obtain ⟨body, shape⟩ := script_eq ds runes typescript
  rw [← block] at shape ⊢
  exact toList_assemble shape

/-- An upgrade leaves a component alone that was generated with runes. -/
theorem upgrade_runes {g : Generated} {typescript : Bool}
    (block : g.declarationBlock = script g.declarations true typescript)
    (closes : ClosesAtEnd g.declarationBlock.toList)
    (slots : recognizes slotElement g.markupBlock.toList = false)
    (events : recognizes eventDirective g.markupBlock.toList = false)
    (rests : recognizes legacyRest g.markupBlock.toList = false) :
    upgrade g.assemble (some g.declarations) = g.assemble := by
  have silent : ∀ {rule : Rule (List Char)} {text : List Char}, Silent rule none text [] →
      substitute rule text = text := by
    intro rule text silent
    have passed := substituteBehind_of_silent silent
    rwa [List.append_nil, substituteBehind_nil, List.append_nil] at passed
  rw [recognizes_eq_false_iff] at slots events rests
  rw [block] at closes
  obtain ⟨body, cut⟩ := cutHit?_script closes (framed g.markupBlock.toList)
  have markup : upgradeMarkup (framed g.markupBlock.toList) = framed g.markupBlock.toList := by
    rw [upgradeMarkup, silent (silent_framed slotElement_ignoresBlanks slots),
      silent (silent_framed eventDirective_ignoresBlanks events),
      silent (silent_framed legacyRest_ignoresBlanks rests)]
  rw [← String.toList_inj, upgrade, String.toList_ofList, toList_assemble_script block, cut]
  simp only [occurs_lang, markup, List.nil_append]

/-- The file of a component is upgraded to the file with the script and the markup that runes have. -/
theorem upgrade_assemble {typescript : Bool} {l r : Generated} (same : SameButStyle typescript l r)
    (closes : ClosesAtEnd l.declarationBlock.toList)
    (slots : recognizes slotElement r.markupBlock.toList = false)
    (events : recognizes eventDirective r.markupBlock.toList = false)
    (rests : recognizes legacyRest r.markupBlock.toList = false) :
    upgrade l.assemble (some l.declarations) = r.assemble := by
  rw [same.olderScript] at closes
  obtain ⟨body, cut⟩ := cutHit?_script closes (framed l.markupBlock.toList)
  have twins : TwinsApart (framed l.markupBlock.toList) (framed r.markupBlock.toList) := by
    have inside := (same.markup.apart.dropEnd.append (.same ['\n'])).cons (c := '\n') (by decide)
    exact (inside.apart.cons (c := '\n') (by decide)).apart
  obtain ⟨ts, fits, older, newer⟩ := twins
  have markup : upgradeMarkup (framed l.markupBlock.toList) = framed r.markupBlock.toList := by
    rw [recognizes_eq_false_iff] at slots events rests
    rw [← older, ← newer]
    refine upgradeMarkup_spell fits ?_ ?_ ?_ <;> rw [newer]
    · exact silent_framed slotElement_ignoresBlanks slots
    · exact silent_framed eventDirective_ignoresBlanks events
    · exact silent_framed legacyRest_ignoresBlanks rests
  rw [← String.toList_inj, toList_assemble_script same.runesScript, upgrade, String.toList_ofList,
    toList_assemble_script same.olderScript, cut]
  simp only [occurs_lang, markup, List.nil_append]

/-- Upgrading what is generated in the older style gives what is generated with runes. -/
theorem svelteRunes_assemble (c : Component) (o : Options) (older newer : SvelteOptions)
    (isOlder : older.runes = false) (isNewer : newer.runes = true) (keys : ForestHasEventKeys c.root)
    {l : Generated} (generated : Svelte.generate c { o with svelte := older } = .ok l)
    (closes : ClosesAtEnd l.declarationBlock.toList) :
    ∃ r, Svelte.generate c { o with svelte := newer } = .ok r ∧
      (recognizes slotElement r.markupBlock.toList = false →
        recognizes eventDirective r.markupBlock.toList = false →
        recognizes legacyRest r.markupBlock.toList = false →
        ∀ context : Plugin.Context, context.declarations = some l.declarations →
          Plugin.svelteRunes.postGenerate.hook?.map (· l.assemble context) =
            some ⟨l.assemble, .ok (some r.assemble), context⟩) := by
  obtain ⟨r, newerRun, same⟩ := (generate_alike c o isOlder isNewer keys).exists_ok generated
  refine ⟨r, newerRun, fun slots events rests context known => ?_⟩
  have upgraded := upgrade_assemble same closes slots events rests
  simp only [Plugin.svelteRunes, Plugin.deliver, Plugin.Slot.hook?, Option.map_some, known, upgraded]

/-- A paragraph that listens to clicks and takes everything else from its callers. -/
def note : Component :=
  { name := "Note"
    root := [.element
      { tag := "p"
        bindings := [("onClick", ⟨"close", .event⟩), (spreadKey, ⟨"props", .spread⟩)] } []]
    metadata := some {} }

def noteOptions : Options := { formatTimeout := .whole 1, typescript := false }

theorem note_hasEventKeys : ForestHasEventKeys note.root := by
  intro h cs member entry bound isEvent
  simp only [note, Node.preorderList, Node.preorder, List.append_nil, List.mem_singleton,
    Node.element.injEq] at member
  rw [member.1] at bound
  rcases List.mem_cons.mp bound with rfl | bound
  · exact isEventKey_onClick
  · obtain rfl := List.mem_singleton.mp bound
    exact absurd isEvent (by simp)

theorem closesAtEnd_note :
    ClosesAtEnd (script (declarations note [] {} noteOptions false) false false).toList := by
  -- there is one declaration only, so sorting, which does not compute, changes nothing
  have single : declarations note [] {} noteOptions false = [{
      kind := .propBinding, name := "props"
      bindings := [{ name := "children" }, { name := "restProps", rest := true }] }] :=
    List.mergeSort_singleton _
  rw [single, script, sortDeclarations, List.mergeSort_singleton]
  decide +kernel

theorem svelteRunes_assemble_note :
    ∃ l r, Svelte.generate note { noteOptions with svelte := ⟨4, true⟩ } = .ok l ∧
      Svelte.generate note { noteOptions with svelte := ⟨5, true⟩ } = .ok r ∧
      l.markupBlock = "<p on:click=\x7bclose\x7d \x7b...$$restProps\x7d><slot /></p>" ∧
      r.markupBlock = "<p onclick=\x7bclose\x7d \x7b...restProps\x7d>\x7b@render children?.()\x7d</p>" ∧
      ∀ context : Plugin.Context, context.declarations = some l.declarations →
        Plugin.svelteRunes.postGenerate.hook?.map (· l.assemble context) =
          some ⟨l.assemble, .ok (some r.assemble), context⟩ := by
  obtain ⟨r, newer, upgraded⟩ := svelteRunes_assemble note noteOptions ⟨4, true⟩ ⟨5, true⟩ rfl rfl
    note_hasEventKeys rfl closesAtEnd_note
  obtain rfl := Except.ok.inj newer
  exact ⟨_, _, rfl, rfl, by decide +kernel, by decide +kernel,
    upgraded (by decide +kernel) (by decide +kernel) (by decide +kernel)⟩

end Recast.Runes
