import Recast.Proofs.Generate.ScriptHead
import Recast.Proofs.Normalize.Convert

/-!
# The module of the merging helper

The options name the module from which a component imports the merging helper. The generators write it as it is, but
the rules that clean imports come later and do not know who chose it: they take it for a path of the source.
-/

set_option autoImplicit false

namespace Recast

open Recast.Catalog Recast.ClassExpr Recast.Generate Recast.Markup Recast.Normalize Recast.Plugin Recast.Repair Recast.Text
open Recast.Analysis (readSource)

/-- How an import of the helper starts. -/
def mergeStart : List Char := "import \x7b cn \x7d from ".toList

/-- The module from which a component imports the merging helper: the one that the first import of the helper in its
script names. -/
def mergeSource? (code : String) : Option String := do
  let (front, rest) ← cut? mergeStart code.toList
  guard ((after? "<script".toList front).isSome && !occurs "</script>".toList front)
  let (_, source, _) ← quotedText? rest
  return String.ofList source

/-- What stands in front of the import of the helper. -/
def beforeMerge (target : Target) (opening : List Char) (names : String) : List Char :=
  (opening ++ ['\n']) ++
    ((if names = "" then [] else [importLine target names (frameworkOf target)]).flatMap ImportLine.text ++
      (importLine target "cn" "").indent)

theorem mergeSource?_of_front {target : Target} {source : String} {s : ScriptFront} (front : IsMergeFront target source s)
    (module : IsModule source.toList) (back : List Char) : mergeSource? (String.ofList (s.text ++ back)) = some source := by
  have checked : ∀ target, ∀ opening ∈ openings, ∀ names ∈ frameworkNames target,
      cut? mergeStart (beforeMerge target opening names ++ mergeStart) = some (beforeMerge target opening names, []) ∧
      ((after? "<script".toList (beforeMerge target opening names)).isSome &&
        !occurs "</script>".toList (beforeMerge target opening names)) = true := by
    intro target
    cases target <;> decide +kernel
  obtain ⟨names, listed, lines⟩ := front.lines
  obtain ⟨cut, inside⟩ := checked target s.opening front.opening names listed
  let line := importLine target "cn" source
  have quote : isPlainQuote line.quote = true := by cases target <;> rfl
  have text : s.text ++ back = (beforeMerge target s.opening names ++ mergeStart) ++
      line.quote :: (source.toList ++ line.quote :: (";\n".toList ++ back)) := by
    have last : line.text = (importLine target "cn" "").indent ++
        (mergeStart ++ line.quote :: (source.toList ++ line.quote :: ";\n".toList)) := by
      rw [ImportLine.text, ImportLine.row, ImportLine.front, ImportLine.text_clause]
      simp only [List.append_assoc, List.cons_append]
      rfl
    rw [ScriptFront.text, lines, headLines, head, List.flatMap_append, List.flatMap_singleton, last, beforeMerge]
    simp only [List.append_assoc, List.cons_append]
  have quoted : quotedText? (line.quote :: (source.toList ++ line.quote :: (";\n".toList ++ back))) =
      some (line.quote, source.toList, ";\n".toList ++ back) :=
    quotedText?_eq_some_iff.mpr ⟨line.quote, quote, quote, module.nonempty, module.unquoted, rfl⟩
  have found := cut?_append cut (by decide) (line.quote :: (source.toList ++ line.quote :: (";\n".toList ++ back)))
  rw [← text, List.nil_append] at found
  have code : (String.ofList (s.text ++ back)).toList = s.text ++ back := String.toList_ofList
  simp only [mergeSource?, code, found, inside, quoted, guard_true, Option.pure_def, Option.bind_eq_bind, Option.bind_some,
    String.ofList_toList]

/-! ## The hooks one by one -/

theorem exists_upgradedFile {o : Options} {g : Generated} (written : Written o g) :
    ∃ back, (upgradedFile o g).toList = g.declarationBlock.toList ++ back := by
  cases runes : runesOf o with
  | false =>
    obtain ⟨attributes, body, -, block⟩ := written.script
    exact ⟨_, by rw [upgradedFile, runes, if_neg Bool.false_ne_true, toList_assemble block]⟩
  | true =>
    have asked : o.target = .svelte ∧ o.svelte.runes = true := by simpa [runesOf] using runes
    have block := written.svelte asked.1
    rw [asked.2] at block
    obtain ⟨body, shape⟩ := Runes.script_eq g.declarations true o.typescript
    obtain ⟨inside, rest, cut⟩ := exists_cutHit?_scriptText (Runes.scriptAttributes_allowed o.typescript) body
      (framed g.markupBlock.toList)
    refine ⟨Runes.upgradeMarkup rest, ?_⟩
    rw [upgradedFile, runes, if_pos rfl, Runes.upgrade, Runes.toList_assemble_script block, shape, cut]
    dsimp only
    rw [Runes.occurs_lang, String.toList_ofList, List.nil_append, ← block]

theorem cleanedModule_frameworkOf (target : Target) (runes : Bool) :
    cleanedModule target runes (frameworkOf target).toList = (frameworkOf target).toList := by
  cases target <;> cases runes <;> decide +kernel

/-- The hooks keep the import of the helper but for its module. -/
theorem exists_cleanedFile {o : Options} {g : Generated} (written : Written o g) {source : String} {s : ScriptFront}
    (front : IsMergeFront o.target source s) (module : IsModule source.toList) (quiet : IsQuiet source.toList)
    {back : List Char} (block : g.declarationBlock.toList = s.text ++ back) :
    ∃ back', (cleanedFile o g).text = (s.moved (cleanedModule o.target (runesOf o))).text ++ back' := by
  have lines := front.isWritten module
  have repaired := leads_repairMarkup lines (front.isQuiet quiet) o.target primitiveTags (runesOf o)
  obtain ⟨rest, upgraded⟩ := exists_upgradedFile written
  rw [block, List.append_assoc] at upgraded
  obtain ⟨rest', cleaned⟩ := (repaired.comp (leads_cleanImports lines o.target (runesOf o))) (back ++ rest)
  exact ⟨rest', by rw [cleanedFile, repairedFile, upgraded]; exact cleaned⟩

theorem mergeSource?_finishedCode {c : Converter} {o : Options} (tidied : c.formatter = none ∨ o.emitFormatted = false)
    {g : Generated} (written : Written o g) {source : String} {s : ScriptFront}
    (front : IsMergeFront o.target source s) (module : IsModule source.toList) (quiet : IsQuiet source.toList)
    {back : List Char} (block : g.declarationBlock.toList = s.text ++ back) :
    mergeSource? (finishedCode c o g) = some (String.ofList (cleanedModule o.target (runesOf o) source.toList)) := by
  obtain ⟨rest, cleaned⟩ := exists_cleanedFile written front module quiet block
  have changed : cleanedModule o.target (runesOf o) source.toList =
      (String.ofList (cleanedModule o.target (runesOf o) source.toList)).toList := String.toList_ofList.symm
  have moved := front.moved (cleanedModule_frameworkOf o.target (runesOf o)) changed
  have module' := isModule_cleanedModule module o.target (runesOf o)
  rw [changed] at module'
  rw [finishedCode, cleaned]
  cases formatted : o.emitFormatted with
  | false => exact mergeSource?_of_front moved module' rest
  | true =>
    have default : c.formatter = none := tidied.resolve_right (by simp [formatted])
    obtain ⟨rest', tidy⟩ := leads_tidy_front (moved.isWritten module') rest
    have run : (Format.run (c.formatter.getD (Format.whitespace {})) (String.ofList
        ((s.moved (cleanedModule o.target (runesOf o))).text ++ rest)) o.target o.formatTimeout).1 =
        String.ofList (Format.tidy {} ((s.moved (cleanedModule o.target (runesOf o))).text ++ rest)) := by
      rw [default]
      simp only [Option.getD_none, Format.run, Format.whitespace, String.toList_ofList]
    simp only [if_pos, run, tidy]
    exact mergeSource?_of_front moved module' rest'

/-! ## Conversions -/

/-- The component that a call is about has sound markup, since all components of a source have. -/
theorem sound_of_choose {parsed : ParsedSource} (wellFormed : parsed.WellFormed) {name path : Option String} {k : Component}
    (found : Converter.choose (consolidated parsed) name path = .ok k) : Sound k.root := by
  have listed : ∀ k ∈ (consolidated parsed).components, Sound k.root := by
    intro k member
    obtain ⟨source, inside, rfl⟩ := List.mem_map.mp member
    have sound := (wellFormed.components source inside).sound
    split <;> exact sound
  have primary : ∀ k, (consolidated parsed).primary? = some k → Sound k.root := by
    intro k chosen
    cases kind : parsed.primary with
    | none => simp [ParsedSource.primary?, consolidated, ParsedSource.updateConvertible, kind] at chosen
    | listed i =>
      have place : (consolidated parsed).components[i]? = some k := by
        simpa [ParsedSource.primary?, consolidated, ParsedSource.updateConvertible, kind] using chosen
      exact listed k (List.mem_of_getElem? place)
    | apart own =>
      have same : parsed.primary? = some k := by
        simpa [ParsedSource.primary?, consolidated, ParsedSource.updateConvertible, kind] using chosen
      exact (wellFormed.components k (wellFormed.primary_mem k same)).sound
  rw [Converter.choose] at found
  split at found
  · split at found
    · rename_i chosen
      obtain rfl := Except.ok.inj found
      exact listed _ (List.mem_of_find?_eq_some (Option.filter_eq_some_iff.mp chosen).1)
    · cases found
  · split at found
    · rename_i chosen
      obtain rfl := Except.ok.inj found
      exact primary _ (Option.filter_eq_some_iff.mp chosen).1
    · cases found

/-- Which configured modules the import of the merging helper keeps: all but icon packages and, for Svelte, paths under
which the source framework keeps helpers, and in the older style what looks like a spread of all props. -/
theorem mergeSource?_configured_iff (c : Converter) (defaults : UsesDefaults c) (r : Request) (o : Options)
    (tidied : c.formatter = none ∨ o.emitFormatted = false) (parsed : ParsedSource) (k : Component) (p : String)
    (resolved : c.resolve r = .ok o)
    (read : readSource r.source { normalizePrimitives := o.normalizePrimitives } r.path = .ok parsed)
    (found : Converter.choose (consolidated parsed) o.targetComponent r.path = .ok k)
    (configured : o.classMergeImport = .text p) (nonempty : p ≠ "") (unquoted : Unquoted p.toList)
    (unbroken : Unbroken p.toList) (quiet : IsQuiet p.toList)
    (calls : ∃ e ∈ carried o.target k (metadataOf k), e.1 = .classBinding ∧
      CallsMerge (spelling o.target k (metadataOf k) e.1 e.2)) :
    ∃ conversion, c.convert r = .ok conversion ∧
      (mergeSource? conversion.code = some p ↔ iconPackages.has p = false ∧
        (o.target = .svelte → startsWith "@/lib/" p = false ∧
          (runesOf o = false → contains "\x7b...$$props\x7d" p = false))) := by
  have path : o.classMergePath.display = p := by
    have isTrue : (Value.text p).isTrue = true := by simpa [Value.isTrue] using nonempty
    rw [Options.classMergePath, configured, isTrue, if_pos rfl, Value.display]
  have module : IsModule p.toList :=
    ⟨by simpa using nonempty, unquoted, fun inside => absurd (unbroken _ inside) (by decide)⟩
  obtain ⟨g, s, back, generated, written, front, block⟩ :=
    exists_generated_mergeFront (sound_of_choose (Analysis.readSource_ok read) found) (path ▸ unbroken) calls
  rw [path] at front
  have source := mergeSource?_finishedCode tidied written front module quiet block
  have code := convert_code_of_ok defaults resolved read found
  rw [generated] at code
  cases converted : c.convert r with
  | error report =>
    rw [converted] at code
    cases code
  | ok conversion =>
    rw [converted] at code
    have same : conversion.code = finishedCode c o g := Except.ok.inj code
    refine ⟨conversion, rfl, ?_⟩
    rw [same, source, Option.some.injEq, ← cleanedModule_eq_self_iff, ← String.toList_inj, String.toList_ofList]

/-- A box that merges its classes. -/
def boxSource : String := "const Box = () => (<div className=\x7bcn(\"box\")\x7d />)"

def boxConverter (path : String) : Converter :=
  { options := { target := .svelte, typescript := false, classMergeImport := .text path, formatTimeout := .whole 1 } }

theorem read_box : ∃ parsed k, readSource boxSource { normalizePrimitives := true } none = .ok parsed ∧
    Converter.choose (consolidated parsed) none none = .ok k ∧
    Svelte.callsMerge ⟨k, metadataOf k, true⟩ (markupOf k (metadataOf k)) = true := by
  have checked : (readSource boxSource { normalizePrimitives := true } none >>= fun parsed =>
      Converter.choose (consolidated parsed) none none).toOption.any (fun k =>
        Svelte.callsMerge ⟨k, metadataOf k, true⟩ (markupOf k (metadataOf k))) = true := by
    have chars : boxSource = String.ofList _ := rfl
    rw [chars, readSource, String.toList_ofList, Tsx.parse?_ofList]
    decide +kernel
  obtain ⟨parsed, k, read, found, merges⟩ := exists_ok_of_any checked
  exact ⟨parsed, k, read, found, merges⟩

theorem mergeSource?_configured_iff_box :
    (∃ conversion, (boxConverter "@/lib/cn").convert { source := boxSource } = .ok conversion ∧
      mergeSource? conversion.code ≠ some "@/lib/cn") ∧
    ∃ conversion, (boxConverter "~/cn").convert { source := boxSource } = .ok conversion ∧
      mergeSource? conversion.code = some "~/cn" := by
  obtain ⟨parsed, k, read, found, merges⟩ := read_box
  have calls := (Svelte.callsMerge_iff k (metadataOf k) true).mp merges
  have instanceAt (path : String) := mergeSource?_configured_iff (boxConverter path) ⟨rfl, rfl, rfl⟩ { source := boxSource }
    (boxConverter path).options (.inl rfl) parsed k path rfl read found rfl
  obtain ⟨moved, converted, lost⟩ := instanceAt "@/lib/cn" (by decide) (by decide) (by decide) ⟨by decide, by decide⟩ calls
  obtain ⟨kept, converted', same⟩ := instanceAt "~/cn" (by decide) (by decide) (by decide) ⟨by decide, by decide⟩ calls
  refine ⟨⟨moved, converted, fun kept => ?_⟩, kept, converted', same.mpr ⟨by decide, fun _ => ⟨by decide, fun older => ?_⟩⟩⟩
  · have apart := ((lost.mp kept).2 rfl).1
    exact absurd apart (by decide)
  · exact absurd older (by decide)

end Recast
