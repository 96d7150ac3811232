import Recast.Proofs.Format.Whitespace
import Recast.Proofs.Normalize.File
import Recast.Proofs.Repair.ImportLine

/-!
# The front of a script

A generated file starts with the opening tag of its script, and the first lines of the script import names. What a
repair, a cleaning and a formatter make of these lines depends on nothing else in the file: all that changes is the
module of a line, by rules that do not know who chose it.
-/

set_option autoImplicit false

namespace Recast.Repair

open Recast.Text Recast.Catalog Recast.Normalize

/-! ## The front -/

/-- The opening tags of scripts. -/
def openings : List (List Char) :=
  ["<script>", "<script lang=\"ts\">", "<script setup>", "<script setup lang=\"ts\">"].map String.toList

/-- The opening tag of a script and the lines of imports that follow it. -/
structure ScriptFront where
  opening : List Char
  lines : List ImportLine

namespace ScriptFront

def text (s : ScriptFront) : List Char := (s.opening ++ ['\n']) ++ s.lines.flatMap ImportLine.text

def moved (f : List Char → List Char) (s : ScriptFront) : ScriptFront := { s with lines := s.lines.map (·.moved f) }

theorem moved_moved (f g : List Char → List Char) (s : ScriptFront) :
    (s.moved f).moved g = s.moved fun source => g (f source) := by
  simp [moved, ImportLine.moved, Function.comp_def]

end ScriptFront

structure ScriptFront.IsWritten (s : ScriptFront) : Prop where
  opening : s.opening ∈ openings
  lines : ∀ l ∈ s.lines, l.IsWritten

section Opening

variable {opening : List Char} (listed : opening ∈ openings)

include listed

theorem exists_opening : ∃ tag, opening = '<' :: 's' :: 'c' :: 'r' :: 'i' :: 'p' :: 't' :: tag := by
  simp only [openings, List.map_cons, List.map_nil, List.mem_cons, List.not_mem_nil, or_false] at listed
  rcases listed with rfl | rfl | rfl | rfl <;> exact ⟨_, rfl⟩

theorem single_opening : '\n' ∉ opening := by
  have all : ∀ opening ∈ openings, '\n' ∉ opening := by decide
  exact all opening listed

theorem takes_keyword_opening {rule : Rule (List Char)} {keyword : String} (needs : NeedsKeyword rule keyword)
    (tagless : '<' ∉ keyword.toList) (nonempty : keyword.toList ≠ []) :
    Takes rule (opening ++ ['\n']) (opening ++ ['\n']) := by
  obtain ⟨tag, rfl⟩ := exists_opening listed
  refine needs.startsLines.takes (single_opening listed) fun previous rest => needs _ _ ?_
  obtain ⟨c, word, shape⟩ := List.exists_cons_of_ne_nil nonempty
  have other : c ≠ '<' := by
    rintro rfl
    exact tagless (shape ▸ List.mem_cons_self)
  have absent : after? keyword.toList ('<' :: ("script".toList ++ (tag ++ '\n' :: rest))) = none := by
    rw [shape]
    exact after?_eq_none_of_head other _ _
  rw [lineKeyword?]
  split
  · exact absent
  · rfl

theorem takes_iconSource_opening (target : Target) :
    Takes (iconSource target) (opening ++ ['\n']) (opening ++ ['\n']) := by
  have absent : ∀ opening ∈ openings, occurs "from".toList (opening ++ ['\n']) = false := by decide
  refine takes_of_silent (silent_of_occurs (p := "from".toList) ?_ (by decide) (absent opening listed))
  intro previous cs none
  rw [iconSource, none]
  cases previous.any isWord <;> rfl

theorem takes_helperPath_opening : Takes helperPath (opening ++ ['\n']) (opening ++ ['\n']) := by
  have absent : ∀ opening ∈ openings, '@' ∉ opening := by decide
  have silent : ∀ (line : List Char), '@' ∉ line → ∀ previous rest,
      Silent helperPath previous (line ++ ['\n']) rest := by
    intro line absent
    induction line with
    | nil => exact fun previous rest => ⟨helperPath_eq_none_of_plain (by decide) _ _, trivial⟩
    | cons c line ih =>
      intro previous rest
      refine ⟨?_, ih (fun member => absent (.tail _ member)) _ _⟩
      cases line with
      | nil => exact helperPath_eq_none_of_other (by decide) _ _
      | cons d line => exact helperPath_eq_none_of_other (fun same => absent (by simp [same])) _ _
  exact takes_of_silent (silent opening (absent opening listed))

theorem takes_restProps_opening : Takes restProps (opening ++ ['\n']) (opening ++ ['\n']) := by
  have absent : ∀ opening ∈ openings, occurs "\x7b...$$props\x7d".toList opening = false := by decide
  exact takes_literally_of_not_occurs (by decide) (by decide) _ (absent opening listed)

theorem takes_attrs_opening :
    Takes (literally "v-bind=\"$props\"" "v-bind=\"$attrs\"") (opening ++ ['\n']) (opening ++ ['\n']) := by
  have absent : ∀ opening ∈ openings, occurs "v-bind=\"$props\"".toList opening = false := by decide
  exact takes_literally_of_not_occurs (by decide) (by decide) _ (absent opening listed)

end Opening

/-! ## Cleaning the front -/

theorem isModule_counterpart {source : List Char} (module : IsModule source) (target : Target) :
    IsModule (counterpart target source) := by
  rcases counterpart_cases target source with same | ⟨nonempty, unquoted, single⟩
  · rwa [same]
  · exact ⟨nonempty, unquoted, single⟩

theorem isModule_helperModule {source : List Char} (module : IsModule source) : IsModule (helperModule source) := by
  rw [helperModule]
  cases inside : after? "@/lib/".toList source with
  | none => exact module
  | some path =>
    obtain rfl := after?_eq_some_iff.mp inside
    exact ⟨by simp, Unquoted.append (by decide) module.unquoted.right, by simpa using module.single⟩

theorem length_substitute_restProps (source : List Char) :
    (substitute restProps source).length = source.length + 4 * hits restProps source := by
  have nonempty : "\x7b...$$props\x7d".toList ≠ [] := by decide
  have length := length_substitute_literally nonempty "\x7b...$$restProps\x7d" source
  have old : "\x7b...$$props\x7d".toList.length = 12 := rfl
  have new : "\x7b...$$restProps\x7d".toList.length = 16 := rfl
  rw [← restProps, old, new] at length
  omega

theorem isModule_restProps {source : List Char} (module : IsModule source) : IsModule (substitute restProps source) := by
  have chars : ∀ {p : Char → Prop}, (∀ c ∈ "\x7b...$$props\x7d".toList, p c) →
      (∀ c ∈ "\x7b...$$restProps\x7d".toList, p c) → (∀ c ∈ source, p c) → ∀ c ∈ substitute restProps source, p c := by
    intro p old new all
    have same : (∀ c ∈ substitute restProps source, p c) = ∀ c ∈ source, p c := by
      refine substitute_keeps (fun cs => ∀ c ∈ cs, p c) (consumes_literally (by decide) _) ?_ source
      intro previous raw text rest found front back
      obtain ⟨whole, rfl⟩ := literally_eq_some found
      obtain rfl := List.append_cancel_right whole
      simp only [List.forall_mem_append, eq_true old, eq_true new]
    exact same ▸ all
  have older : Unquoted "\x7b...$$props\x7d".toList := by decide
  have newer : Unquoted "\x7b...$$restProps\x7d".toList := by decide
  refine ⟨fun none => ?_, chars older newer module.unquoted, ?_⟩
  · have positive := List.length_pos_of_ne_nil module.nonempty
    have length := length_substitute_restProps source
    rw [none, List.length_nil] at length
    omega
  · have apart : ∀ {text : List Char}, '\n' ∉ text → ∀ c ∈ text, c ≠ '\n' := fun single c inside same =>
      single (same ▸ inside)
    exact fun inside => chars (apart (by decide)) (apart (by decide)) (apart module.single) _ inside rfl

/-- What the last rules of cleaning make of a module. -/
def targetModule (target : Target) (runes : Bool) (source : List Char) : List Char :=
  match target with
  | .svelte => if runes then helperModule source else substitute restProps (helperModule source)
  | .vue => source

/-- What cleaning makes of the module of an import. -/
def cleanedModule (target : Target) (runes : Bool) (source : List Char) : List Char :=
  targetModule target runes (counterpart target source)

theorem isModule_targetModule {source : List Char} (module : IsModule source) (target : Target) (runes : Bool) :
    IsModule (targetModule target runes source) := by
  have helper := isModule_helperModule module
  cases target with
  | vue => exact module
  | svelte =>
    cases runes with
    | true => exact helper
    | false => exact isModule_restProps helper

theorem isModule_cleanedModule {source : List Char} (module : IsModule source) (target : Target) (runes : Bool) :
    IsModule (cleanedModule target runes source) :=
  isModule_targetModule (isModule_counterpart module target) target runes

section Front

variable {s : ScriptFront}

theorem ScriptFront.IsWritten.moved (written : s.IsWritten) {f : List Char → List Char}
    (modules : ∀ source, IsModule source → IsModule (f source)) : (s.moved f).IsWritten where
  opening := written.opening
  lines l member := by
    obtain ⟨line, before, rfl⟩ := List.mem_map.mp member
    exact (written.lines line before).moved (modules _ (written.lines line before).source)

theorem ScriptFront.leads {rule : Rule (List Char)} {f : List Char → List Char}
    (opening : Takes rule (s.opening ++ ['\n']) (s.opening ++ ['\n']))
    (lines : ∀ l ∈ s.lines, Takes rule l.text (l.moved f).text) : Leads (substitute rule) s.text (s.moved f).text := by
  have whole := (opening.flatMap lines).leads
  rwa [ScriptFront.text, ScriptFront.text, ScriptFront.moved, List.flatMap_map]

variable (written : s.IsWritten)

include written

theorem leads_uncluttered : Leads uncluttered s.text s.text := by
  have primitives : Leads (substitute primitivesImport) s.text s.text :=
    ((takes_keyword_opening written.opening needs_primitivesImport (by decide) (by decide)).flatMap fun l member =>
      takes_primitivesImport_text (written.lines l member)).leads
  have aliases : Leads (substitute primitiveAlias) s.text s.text :=
    ((takes_keyword_opening written.opening needs_primitiveAlias (by decide) (by decide)).flatMap fun l member =>
      takes_primitiveAlias_text (written.lines l member)).leads
  have imports : Leads (substitute variantPropsImport) s.text s.text :=
    ((takes_keyword_opening written.opening needs_variantPropsImport (by decide) (by decide)).flatMap fun l member =>
      takes_variantPropsImport_text (written.lines l member)).leads
  have types : Leads dropVariantProps s.text s.text := by
    intro rest
    rw [dropVariantProps]
    split
    · exact ⟨rest, rfl⟩
    · exact imports rest
  exact (primitives.comp aliases).comp types

theorem leads_targetRules (target : Target) (runes : Bool) :
    Leads (fun cs => (targetRules target runes).foldl (fun cs rule => substitute rule cs) cs) s.text
      (s.moved (targetModule target runes)).text := by
  cases target with
  | vue =>
    have bindings : Leads (substitute (literally "v-bind=\"$props\"" "v-bind=\"$attrs\"")) s.text s.text :=
      ((takes_attrs_opening written.opening).flatMap fun l member =>
        takes_literally_of_not_occurs (by decide) (by decide) _ (not_occurs_attrs (written.lines l member))).leads
    have same : s.moved (targetModule .vue runes) = s := by simp [ScriptFront.moved, ImportLine.moved, targetModule]
    rw [same]
    exact bindings
  | svelte =>
    have paths : Leads (substitute helperPath) s.text (s.moved helperModule).text :=
      ScriptFront.leads (takes_helperPath_opening written.opening) fun l member =>
      takes_helperPath_text (written.lines l member)
    cases runes with
    | true => exact paths
    | false =>
      have placed := written.moved fun _ module => isModule_helperModule module
      have spreads : Leads (substitute restProps) (s.moved helperModule).text
          ((s.moved helperModule).moved (substitute restProps)).text :=
        ScriptFront.leads (takes_restProps_opening placed.opening) fun l member => takes_restProps_text (placed.lines l member)
      rw [ScriptFront.moved_moved] at spreads
      exact paths.comp spreads

theorem leads_cleanImports (target : Target) (runes : Bool) :
    Leads (fun cs => (cleanImports cs target runes).text) s.text (s.moved (cleanedModule target runes)).text := by
  have icons : Leads (substitute (iconSource target)) s.text (s.moved (counterpart target)).text :=
    ScriptFront.leads (takes_iconSource_opening written.opening target) fun l member =>
      takes_iconSource_text (written.lines l member) target
  have placed : (s.moved (counterpart target)).IsWritten :=
    written.moved fun _ module => isModule_counterpart module target
  have rules := leads_targetRules placed target runes
  rw [ScriptFront.moved_moved] at rules
  simp only [cleanImports_text]
  exact ((leads_uncluttered written).comp icons).comp rules

end Front

/-! ## Modules that cleaning keeps -/

theorem substitute_restProps_eq_self_iff (source : List Char) :
    substitute restProps source = source ↔ occurs "\x7b...$$props\x7d".toList source = false := by
  refine ⟨fun same => ?_, substitute_literally_of_not_occurs (by decide) _⟩
  have length := length_substitute_restProps source
  rw [same] at length
  have none : hits restProps source = 0 := by omega
  rw [hits, List.length_eq_zero_iff, List.filterMap_eq_nil_iff] at none
  rw [← recognizes_literally (by decide) "\x7b...$$restProps\x7d", ← restProps, recognizes_eq_false_iff_hit]
  intro raw text member
  exact absurd (none _ member) (by simp [Segment.value?])

/-- A path that is moved is as long as before but for a few characters, and the other rule adds four at a time. -/
theorem helperModule_changes {source inside : List Char} (found : after? "@/lib/".toList source = some inside)
    (runes : Bool) :
    targetModule .svelte runes source ≠ source := by
  have moved : (helperModule source).length + 1 = source.length := by
    rw [helperModule, found, after?_eq_some_iff.mp found]
    simp
  intro same
  have lengths := congrArg List.length same
  cases runes with
  | true =>
    have kept : (helperModule source).length = source.length := lengths
    omega
  | false =>
    have kept : (substitute restProps (helperModule source)).length = source.length := lengths
    have length := length_substitute_restProps (helperModule source)
    omega

theorem targetModule_svelte_eq_self_iff (runes : Bool) (p : String) :
    targetModule .svelte runes p.toList = p.toList ↔ startsWith "@/lib/" p = false ∧
      (runes = false → contains "\x7b...$$props\x7d" p = false) := by
  cases path : after? "@/lib/".toList p.toList with
  | some inside =>
    have starts : startsWith "@/lib/" p = true := by rw [startsWith, path, Option.isSome_some]
    simp only [helperModule_changes path runes, starts, Bool.true_eq_false, false_and]
  | none =>
    have starts : startsWith "@/lib/" p = false := by rw [startsWith, path, Option.isSome_none]
    have same : helperModule p.toList = p.toList := by rw [helperModule, path]
    rw [targetModule, same, starts, contains]
    cases runes with
    | true => simp
    | false =>
      rw [if_neg Bool.false_ne_true, substitute_restProps_eq_self_iff]
      simp only [true_and, true_imp_iff]

/-- An icon package has another one for each target, which the last rules do not turn back. -/
theorem cleanedModule_ne_of_listed {p : String} (listed : iconPackages.has p = true) (target : Target) (runes : Bool) :
    cleanedModule target runes p.toList ≠ p.toList := by
  have replaced : ∀ entry ∈ iconPackages,
      (targetModule .svelte true entry.2.svelte.toList ≠ entry.1.toList ∧
        targetModule .svelte false entry.2.svelte.toList ≠ entry.1.toList) ∧
      entry.2.vue.toList ≠ entry.1.toList := by
    decide +kernel
  rw [← isSome_get?, Option.isSome_iff_exists] at listed
  obtain ⟨package, found⟩ := listed
  obtain ⟨front, back, shape, -⟩ := List.lookup_eq_some_iff.mp found
  obtain ⟨⟨moved, spread⟩, vue⟩ := replaced (p, package) (by rw [shape]; simp)
  rw [cleanedModule, counterpart, iconPackageFor?, String.ofList_toList, found]
  simp only [Option.map_some, Option.getD_some]
  cases target with
  | svelte =>
    cases runes with
    | true => exact moved
    | false => exact spread
  | vue => exact vue

/-- The modules that cleaning keeps: no icon packages, and for Svelte no path under which the source framework keeps
helpers and no spread of the older style. -/
theorem cleanedModule_eq_self_iff (target : Target) (runes : Bool) (p : String) :
    cleanedModule target runes p.toList = p.toList ↔ iconPackages.has p = false ∧
      (target = .svelte → startsWith "@/lib/" p = false ∧
        (runes = false → contains "\x7b...$$props\x7d" p = false)) := by
  cases listed : iconPackages.has p with
  | true => simp [cleanedModule_ne_of_listed listed]
  | false =>
    rw [← isSome_get?, Option.isSome_eq_false_iff, Option.isNone_iff_eq_none] at listed
    have kept : counterpart target p.toList = p.toList := by
      rw [counterpart, iconPackageFor?, String.ofList_toList, listed]
      rfl
    rw [cleanedModule, kept]
    cases target with
    | vue => simp [targetModule]
    | svelte => simp only [true_and, true_imp_iff, targetModule_svelte_eq_self_iff]

/-! ## Repairing the front -/

/-- A module that holds nothing of markup. -/
structure IsQuiet (source : List Char) : Prop where
  tagless : '<' ∉ source
  classless : occurs "className=".toList source = false

/-- A rule that is silent on the front of a text leaves it. -/
theorem leads_of_silent {rule : Rule (List Char)} {front : List Char}
    (silent : ∀ rest, Silent rule none front rest) : Leads (substitute rule) front front := fun rest =>
  ⟨_, substituteBehind_of_silent (silent rest)⟩

/-- A rule that starts at a bracket is silent on a text with no bracket but the first. -/
theorem silent_of_bracket {α : Type} {rule : Rule α} (needs : ∀ c, c ≠ '<' → ∀ p cs, rule p (c :: cs) = none)
    {inside : List Char} (tagless : '<' ∉ inside) {rest : List Char} {previous : Option Char}
    (first : rule previous ('<' :: (inside ++ rest)) = none) : Silent rule previous ('<' :: inside) rest :=
  ⟨first, silent_of_forall (fun c member => needs c fun same => tagless (same ▸ member)) _ _⟩

theorem exists_segments_of_silent {α : Type} {rule : Rule α} {front rest : List Char} {previous : Option Char}
    (nonempty : front ≠ []) (silent : Silent rule previous front rest) :
    ∃ text more, segmentsFrom rule 0 previous (front ++ rest) = .plain (front ++ text) :: more := by
  induction front generalizing previous with
  | nil => exact absurd rfl nonempty
  | cons c front ih =>
    rw [List.cons_append, segmentsFrom_of_none silent.1]
    cases front with
    | nil =>
      cases segmentsFrom rule 0 (some c) ([] ++ rest) with
      | nil => exact ⟨[], [], rfl⟩
      | cons piece pieces =>
        cases piece with
        | plain text => exact ⟨text, pieces, rfl⟩
        | hit text value => exact ⟨[], .hit text value :: pieces, rfl⟩
    | cons d front =>
      obtain ⟨text, more, shape⟩ := ih (List.cons_ne_nil d front) silent.2
      exact ⟨text, more, by rw [shape]; rfl⟩

/-- The front of a script lies inside a script block or, if its closing tag is gone, in front of all of them. -/
theorem leads_outsideScripts {f : List Char → List Char} {inside : List Char} (tagless : '<' ∉ inside)
    (outside : Leads f ('<' :: inside) ('<' :: inside)) :
    Leads (outsideScripts f) ('<' :: inside) ('<' :: inside) := by
  intro rest
  rw [outsideScripts, segments]
  cases found : scriptBlock none ('<' :: (inside ++ rest)) with
  | none =>
    have silent : Silent scriptBlock none ('<' :: inside) rest :=
      silent_of_bracket (fun c other p cs => scriptBlock_eq_none_of_ne other p cs) tagless found
    obtain ⟨text, more, shape⟩ := exists_segments_of_silent (List.cons_ne_nil _ _) silent
    obtain ⟨rest', kept⟩ := outside text
    rw [shape, List.flatMap_cons]
    exact ⟨_, (congrArg (· ++ _) kept).trans (List.append_assoc ..)⟩
  | some hit =>
    obtain ⟨value, behind⟩ := hit
    obtain ⟨attributes, body, -, whole⟩ := scriptBlock_eq_some found
    rw [List.cons_append, whole, segmentsFrom_of_some (by simp [scriptText_eq]) (whole ▸ found), List.flatMap_cons]
    have tag : scriptText attributes body =
        '<' :: ("script".toList ++ (attributes ++ '>' :: (body ++ "</script>".toList))) := rfl
    rw [tag] at whole ⊢
    rcases List.append_eq_append_iff.mp (List.cons.inj whole).2 with ⟨gap, same, -⟩ | ⟨gap, same, -⟩
    · rw [same]
      exact ⟨_, List.append_assoc ('<' :: inside) gap _⟩
    · exact absurd (by rw [same]; simp) tagless

theorem selfClosing_opening {opening : List Char} (listed : opening ∈ openings) (previous : Option Char)
    (rest : List Char) : selfClosing previous (opening ++ '\n' :: rest) = none := by
  simp only [openings, List.map_cons, List.map_nil, List.mem_cons, List.not_mem_nil, or_false] at listed
  rcases listed with rfl | rfl | rfl | rfl <;> rfl

theorem nativeName?_eq_none_of_ne {c : Char} (other : c ≠ '<') (cs : List Char) : nativeName? (c :: cs) = none := by
  rw [nativeName?, after?_eq_none_of_head other.symm]
  rfl

theorem emptyElement_eq_none_of_ne {c : Char} (other : c ≠ '<') (filling : List Char) (previous : Option Char)
    (cs : List Char) : emptyElement filling previous (c :: cs) = none := by
  rw [emptyElement, after?_eq_none_of_head other.symm]
  rfl

theorem ImportLine.IsWritten.tagless_row {l : ImportLine} (written : l.IsWritten) (tagless : '<' ∉ l.source) :
    '<' ∉ l.row := by
  have inFront := written.not_mem_front (c := '<') (by decide) (by decide) (by decide)
  have quote := written.quote_ne (c := '<') (by decide)
  simp [ImportLine.row_eq, ImportLine.beforeQuote, inFront, quote.symm, tagless]

theorem ImportLine.IsWritten.classless_row {l : ImportLine} (written : l.IsWritten)
    (classless : occurs "className=".toList l.source = false) : occurs "className=".toList l.row = false := by
  have inFront := written.not_mem_front (c := '=') (by decide) (by decide) (by decide)
  have front : occurs "className=".toList l.beforeQuote = false :=
    occurs_eq_false_of_not_mem (c := '=') (by decide) (by simp [ImportLine.beforeQuote, inFront])
  have quote : l.quote ∉ "className=".toList := written.quote_not_mem (by decide)
  rw [l.row_eq, occurs_append_cons quote (by decide), occurs_append_cons quote (by decide), front, classless]
  rfl

section Repair

variable {s : ScriptFront} (written : s.IsWritten) (quiet : ∀ l ∈ s.lines, IsQuiet l.source)

include written quiet

theorem exists_text_eq : ∃ inside, s.text = '<' :: ("script".toList ++ inside) ∧ '<' ∉ "script".toList ++ inside := by
  have once : ∀ opening ∈ openings, '<' ∉ opening.tail := by decide
  obtain ⟨tag, shape⟩ := exists_opening written.opening
  have tagless : '<' ∉ "script".toList ++ tag := by
    have here := once _ written.opening
    rwa [shape] at here
  refine ⟨tag ++ ('\n' :: s.lines.flatMap ImportLine.text), by simp [ScriptFront.text, shape], ?_⟩
  simp only [List.mem_append, List.mem_cons, List.mem_flatMap, not_or, not_exists, not_and] at tagless ⊢
  refine ⟨tagless.1, tagless.2, by decide, fun l member inText => ?_⟩
  rw [ImportLine.text, List.mem_append] at inText
  rcases inText with inRow | last
  · exact (written.lines l member).tagless_row (quiet l member).tagless inRow
  · exact absurd last (by decide)

theorem leads_classNameAttribute : Leads (substitute classNameAttribute) s.text s.text := by
  have needs : ∀ previous cs, after? "className=".toList cs = none → classNameAttribute previous cs = none := by
    intro previous cs none
    rw [classNameAttribute, none]
    cases previous.any fun c => isBlank c || c == ':' <;> rfl
  have absent : ∀ opening ∈ openings, occurs "className=".toList opening = false := by decide
  have row : ∀ line : List Char, occurs "className=".toList line = false →
      Takes classNameAttribute (line ++ ['\n']) (line ++ ['\n']) := fun line absent => by
    refine takes_of_silent (silent_of_occurs needs (by decide) ?_)
    rw [occurs_append_cons (by decide) (by decide), absent]
    rfl
  exact ((row _ (absent _ written.opening)).flatMap fun l member =>
    row _ ((written.lines l member).classless_row (quiet l member).classless)).leads

theorem leads_fixMarkup (target : Target) (runes : Bool) : Leads (fixMarkup target runes) s.text s.text := by
  obtain ⟨inside, shape, tagless⟩ := exists_text_eq written quiet
  have brackets : ∀ {rule : Rule (List Char)}, (∀ c, c ≠ '<' → ∀ p cs, rule p (c :: cs) = none) →
      (∀ rest, rule none (s.text ++ rest) = none) → Leads (substitute rule) s.text s.text := by
    intro rule needs first
    rw [shape] at first ⊢
    exact leads_of_silent fun rest => silent_of_bracket needs tagless (first rest)
  have closings : Leads (substitute voidClosing) s.text s.text :=
    brackets (fun c other p cs => voidClosing_eq_none_of_ne other p cs) fun rest => by rw [shape]; rfl
  have elements : Leads (substitute (emptyElement (placeholder target runes))) s.text s.text :=
    brackets (fun c other p cs => emptyElement_eq_none_of_ne other _ p cs) fun rest => by rw [shape]; rfl
  have tags : Leads (substitute selfClosing) s.text s.text := by
    refine brackets (fun c other p cs => ?_) fun rest => ?_
    · rw [selfClosing, nativeName?_eq_none_of_ne other]
      rfl
    · have text : s.text ++ rest = s.opening ++ '\n' :: (s.lines.flatMap ImportLine.text ++ rest) := by
        simp [ScriptFront.text]
      rw [text]
      exact selfClosing_opening written.opening _ _
  have tags' : Leads (fun cs => if target = .svelte then substitute selfClosing cs else cs) s.text s.text := by
    split
    · exact tags
    · exact .refl _
  exact ((closings.comp tags').comp elements).comp (leads_classNameAttribute written quiet)

theorem leads_repairMarkup (target : Target) (table : Assoc String) (runes : Bool) :
    Leads (fun cs => (repairMarkup cs target table runes).text) s.text s.text := by
  obtain ⟨inside, shape, tagless⟩ := exists_text_eq written quiet
  have inert : Inert target s.text := by
    rw [shape]
    refine ⟨fun rest => ?_, inert_of_not_mem target tagless⟩
    cases target <;> rfl
  have tags : Leads (fun cs => (substituteTags cs target table).text) s.text s.text := fun rest =>
    ⟨_, congrArg Repaired.text (substituteAt_inert target table [] inert rest)⟩
  have fixed := leads_fixMarkup written quiet target runes
  rw [shape] at fixed tags ⊢
  exact tags.comp (leads_outsideScripts tagless fixed)

end Repair

/-! ## Formatting the front -/

/-- A line that formatting leaves alone. -/
structure IsSolid (row : List Char) : Prop where
  single : '\n' ∉ row
  ended : row.getLast?.any (!isBlank ·) = true

section Solid

variable {rows : List (List Char)} (solid : ∀ row ∈ rows, IsSolid row)

theorem IsSolid.isBlankLine {row : List Char} (solid : IsSolid row) : Format.isBlankLine row = false := by
  obtain ⟨c, last, shown⟩ := (Option.any_eq_true _ _).mp solid.ended
  rw [Format.isBlankLine, List.all_eq_false]
  exact ⟨c, List.mem_of_getLast? last, by simpa using shown⟩

theorem IsSolid.trimLine {row : List Char} (solid : IsSolid row) : Format.trimLine {} row = row := by
  obtain ⟨c, last, shown⟩ := (Option.any_eq_true _ _).mp solid.ended
  rw [Format.trimLine, if_pos rfl, dropEndWhile_eq_self_iff_getLast]
  simpa [last] using shown

theorem IsSolid.ne_nil {row : List Char} (solid : IsSolid row) : row ≠ [] := by
  rintro rfl
  exact Bool.false_ne_true solid.ended

include solid

theorem splitChar_rows (rest : List Char) :
    splitChar '\n' (rows.flatMap (· ++ ['\n']) ++ rest) = rows ++ splitChar '\n' rest := by
  induction rows with
  | nil => rfl
  | cons row rows ih =>
    have alone : splitChar '\n' row = [row] :=
      splitChar_joinChars (List.cons_ne_nil row []) (by simpa using (solid row List.mem_cons_self).single)
    rw [List.flatMap_cons, List.append_assoc, List.append_assoc, List.singleton_append, splitChar_append_cons, alone,
      ih fun next member => solid next (.tail _ member)]
    rfl

theorem limitBlankLines_rows (limit : Int) (more : List (List Char)) :
    Format.limitBlankLines limit 0 (rows ++ more) = rows ++ Format.limitBlankLines limit 0 more := by
  induction rows with
  | nil => rfl
  | cons row rows ih =>
    rw [List.cons_append, Format.limitBlankLines, (solid row List.mem_cons_self).isBlankLine, if_neg Bool.false_ne_true,
      ih fun next member => solid next (.tail _ member)]
    rfl

theorem exists_inner_rows (nonempty : rows ≠ []) (more : List (List Char)) :
    ∃ kept, Format.inner (rows ++ more) = rows ++ kept := by
  have starts : ∀ ls : List (List Char), ls ≠ [] → (∀ row ∈ ls, row ∈ rows) → ∀ more,
      (ls ++ more).dropWhile List.isEmpty = ls ++ more := by
    intro ls nonempty inside more
    obtain ⟨row, ls, rfl⟩ := List.exists_cons_of_ne_nil nonempty
    have shown := (solid row (inside row List.mem_cons_self)).ne_nil
    rw [List.cons_append, List.dropWhile_cons_of_neg (by simpa using shown)]
  have ends := starts rows.reverse (by simpa using nonempty) (fun row member => List.mem_reverse.mp member) []
  rw [List.append_nil] at ends
  rw [Format.inner, starts rows nonempty (fun _ member => member), List.rdropWhile, List.reverse_append,
    List.dropWhile_append]
  split
  · exact ⟨[], by rw [ends, List.reverse_reverse, List.append_nil]⟩
  · exact ⟨_, by rw [List.reverse_append, List.reverse_reverse]⟩

/-- A formatter for white space changes nothing in lines that are in order. -/
theorem leads_tidy (nonempty : rows ≠ []) :
    Leads (Format.tidy {}) (rows.flatMap (· ++ ['\n'])) (rows.flatMap (· ++ ['\n'])) := by
  intro rest
  have trimmed : rows.map (Format.trimLine {}) = rows :=
    (List.map_congr_left fun row member => (solid row member).trimLine).trans (List.map_id rows)
  obtain ⟨kept, shape⟩ := exists_inner_rows solid nonempty
    (Format.limitBlankLines 1 0 ((splitChar '\n' rest).map (Format.trimLine {})))
  refine ⟨kept.flatMap (· ++ ['\n']), ?_⟩
  have limit : ({} : Format.Whitespace).maxEmptyLines = 1 := rfl
  have ended : Format.textOf {} (rows ++ kept) = (rows ++ kept).flatMap (· ++ ['\n']) :=
    joinChars_append_singleton '\n' (by simp [nonempty])
  rw [Format.tidy_eq, splitChar_rows solid, Format.tidyLines, List.map_append, trimmed, limit,
    limitBlankLines_rows solid, shape, ended, List.flatMap_append]

end Solid

def ScriptFront.rows (s : ScriptFront) : List (List Char) := s.opening :: s.lines.map ImportLine.row

theorem ScriptFront.text_eq_rows (s : ScriptFront) : s.text = s.rows.flatMap (· ++ ['\n']) := by
  rw [ScriptFront.rows, List.flatMap_cons, List.flatMap_map]
  rfl

theorem ScriptFront.IsWritten.isSolid {s : ScriptFront} (written : s.IsWritten) : ∀ row ∈ s.rows, IsSolid row := by
  have ended : ∀ opening ∈ openings, opening.getLast?.any (!isBlank ·) = true := by decide
  refine List.forall_mem_cons.mpr ⟨⟨single_opening written.opening, ended _ written.opening⟩, fun row member => ?_⟩
  obtain ⟨l, inside, rfl⟩ := List.mem_map.mp member
  refine ⟨(written.lines l inside).single_row, ?_⟩
  rw [ImportLine.row, ← List.append_assoc, List.getLast?_concat]
  rfl

theorem leads_tidy_front {s : ScriptFront} (written : s.IsWritten) : Leads (Format.tidy {}) s.text s.text := by
  rw [s.text_eq_rows]
  exact leads_tidy written.isSolid (List.cons_ne_nil _ _)

end Recast.Repair
