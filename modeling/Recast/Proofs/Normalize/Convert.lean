import Recast.Proofs.Normalize.Generate
import Recast.Proofs.Plugin.Builtin

/-!
# Conversions of wrapped primitives

`convert_normalized` says when it does not matter at which end of a conversion primitives get their
native tags: the text behind the script is the same.
-/

set_option autoImplicit false

namespace Recast.Normalize

open Recast.Text Recast.Repair Recast.Generate Recast.Markup Recast.Plugin
open Recast.Analysis (readSource)

/-! ## Conversions step by step -/

/-- The code of a generated component when all hooks are through. -/
def finishedCode (c : Converter) (o : Options) (g : Generated) : String :=
  let code := String.ofList (cleanedFile o g).text
  if o.emitFormatted then
    (Format.run (c.formatter.getD (Format.whitespace {})) code o.target o.formatTimeout).1
  else code

theorem repaired_upgraded {context : Context} {o : Options} (target : context.target = o.target)
    (runes : context.runes = runesOf o) (g : Generated) :
    repaired Catalog.primitiveTags
        (if context.runes then Runes.upgrade g.assemble (some g.declarations) else g.assemble) context =
      String.ofList (cleanedFile o g).text := by
  rw [repaired, cleanedFile, repairedFile, upgradedFile, target, runes]

theorem finish_code (c : Converter) (o : Options) (parsed : ParsedSource) (k : Component) :
    (·.code) <$> c.finish (preparedFrom o parsed) k = finishedCode c o <$> generate k o := by
  rw [Converter.finish]
  have options : (preparedFrom o parsed).context.options = o := rfl
  have pipeline : (preparedFrom o parsed).pipeline = ⟨builtinPlugins o.target⟩ := rfl
  rw [options, pipeline]
  cases generate k o with
  | error e => rfl
  | ok g =>
    let context := { Converter.componentContext (preparedFrom o parsed) k.name with
      declarations := some g.declarations, usedFallback := g.usedFallback }
    have hooks := runPostGenerate_builtin o.target context rfl g.assemble
    have code : repaired Catalog.primitiveTags _ context = _ := repaired_upgraded (o := o) rfl rfl g
    have right : finishedCode c o <$> Except.ok (ε := Report) g = .ok (finishedCode c o g) := rfl
    simp only [bind, Except.bind]
    rw [hooks, right, finishedCode, ← code]
    cases formatted : o.emitFormatted <;> rfl

/-- A conversion with the default plugins in one piece. -/
theorem convert_code {c : Converter} (defaults : UsesDefaults c) (r : Request) :
    (·.code) <$> c.convert r = (do
      let o ← c.resolve r
      let parsed ← readSource r.source { normalizePrimitives := o.normalizePrimitives } r.path
      let k ← Converter.choose (consolidated parsed) o.targetComponent r.path
      finishedCode c o <$> generate k o) := by
  rw [Converter.convert]
  cases c.resolve r with
  | error e => rfl
  | ok o =>
    simp only [bind, Except.bind]
    rw [prepare_eq defaults]
    cases readSource r.source { normalizePrimitives := o.normalizePrimitives } r.path with
    | error e => rfl
    | ok parsed =>
      have prepared : (preparedFrom o parsed).source = consolidated parsed := rfl
      simp only [Functor.map, Except.map, prepared]
      cases Converter.choose (consolidated parsed) o.targetComponent r.path with
      | error e => rfl
      | ok k => exact finish_code c o parsed k

theorem convert_code_of_ok {c : Converter} (defaults : UsesDefaults c) {r : Request} {o : Options}
    {parsed : ParsedSource} {k : Component} (resolved : c.resolve r = .ok o)
    (read : readSource r.source { normalizePrimitives := o.normalizePrimitives } r.path = .ok parsed)
    (found : Converter.choose (consolidated parsed) o.targetComponent r.path = .ok k) :
    (·.code) <$> c.convert r = finishedCode c o <$> generate k o := by
  rw [convert_code defaults, resolved]
  simp only [bind, Except.bind, read, found]

/-! ## The two ends of a conversion -/

/-- The conversion that gives primitives their native tags when the source is read, or leaves them to
the repair. -/
def normalizing (c : Converter) (early : Bool) : Converter :=
  { c with options := { c.options with normalizePrimitives := early } }

def earlier (early : Bool) (o : Options) : Options := { o with normalizePrimitives := early }

theorem resolve_normalizing (c : Converter) (early : Bool) (r : Request) :
    (normalizing c early).resolve r = earlier early <$> c.resolve r := by
  simp only [Converter.resolve, Options.merged, normalizing]
  cases ((r.target.map Target.parse).getD (.ok c.options.target)) with
  | error e => rfl
  | ok target =>
    simp only [bind, Except.bind, Options.check]
    split
    · rfl
    · split
      · rfl
      · split <;> rfl

/-- A component whose primitives a repair takes to what normalization makes of them. Its markup can
be repaired, both files hold what generators write and nothing that looks like it, and where the
scripts differ neither a formatter nor the removal of imports gets at them. -/
structure Fits (o : Options) (k : Component) : Prop where
  forest : ForestRepairable (spellingOf o k) k (metadataOf k) k.root
  plain : ∀ l, generate k o = .ok l → Plain o l
  native : ∀ r, generate (nativeComponent k) o = .ok r →
    Plain o r ∧ Lacks (reservedStarts o.target) (framed r.markupBlock.toList)
  scripts : ∀ l r, generate k o = .ok l → generate (nativeComponent k) o = .ok r →
    l.declarationBlock = r.declarationBlock ∨
      o.emitFormatted = false ∧ (cleanedFile o l).count = 0 ∧ (cleanedFile o r).count = 0

/-- Codes that are the same, or the same behind their scripts. -/
def SameBehindScript (a b : String) : Prop :=
  a = b ∨ ∃ text, behindScript a = some text ∧ behindScript b = some text

theorem finishedCode_alike (c : Converter) {o : Options} {k : Component} (fits : Fits o k) :
    Alike SameBehindScript (finishedCode c o <$> generate k o)
      (finishedCode c o <$> generate (nativeComponent k) o) := by
  refine (generate_alike fits.forest).bind_of_ok fun l r writtenL writtenR same => .ok ?_
  have plainL := fits.plain l writtenL
  obtain ⟨plainR, absent⟩ := fits.native r writtenR
  obtain ⟨markup, left, right⟩ := repairedFile_alike same plainL plainR absent
  rcases fits.scripts l r writtenL writtenR with block | ⟨unformatted, cleanL, cleanR⟩
  · refine .inl ?_
    rw [finishedCode, finishedCode, cleanedFile, cleanedFile, left, right, block]
  · refine .inr ⟨markup, ?_, ?_⟩
    · rw [finishedCode, unformatted, if_neg Bool.false_ne_true, cleanedFile,
        cleanImports_text_of_count cleanL, left, behindScript_append same.left plainL]
    · rw [finishedCode, unformatted, if_neg Bool.false_ne_true, cleanedFile,
        cleanImports_text_of_count cleanR, right, behindScript_append same.right plainR]

/-- Primitives get the same native elements at both ends of a conversion, and conversions fail
alike. -/
theorem convert_normalized (c : Converter) (defaults : UsesDefaults c) (r : Request)
    (fits : ∀ o parsed k, c.resolve r = .ok o →
      readSource r.source { normalizePrimitives := false } r.path = .ok parsed →
      Converter.choose (consolidated parsed) o.targetComponent r.path = .ok k → Fits o k) :
    Alike SameBehindScript ((·.code) <$> (normalizing c false).convert r)
      ((·.code) <$> (normalizing c true).convert r) := by
  have defaults' : ∀ early, UsesDefaults (normalizing c early) := fun early =>
    ⟨defaults.registry, defaults.plugins, defaults.extraPlugins⟩
  rw [convert_code (defaults' false), convert_code (defaults' true), resolve_normalizing,
    resolve_normalizing]
  cases resolved : c.resolve r with
  | error e => exact .error e
  | ok o =>
    refine (readSource_alike r.source r.path).bind_of_ok fun parsed parsed' read _ same => ?_
    have chosen := same.consolidated.choose_alike o.targetComponent r.path
    refine chosen.bind_of_ok fun k k' found _ native => ?_
    rw [native]
    -- the options of the two runs differ in a field that nothing reads from here on
    have alike := finishedCode_alike c (fits o parsed k resolved read found)
    exact alike

/-- An avatar that takes everything from its callers. -/
def avatarSource : String := "const Avatar = (props) => (<AvatarPrimitive.Root \x7b...props\x7d />)"

def avatarHead : Head := { tag := "AvatarPrimitive.Root", bindings := [(spreadKey, ⟨"props", .spread⟩)] }

def avatar : Component := { name := "Avatar", root := [.element avatarHead []], metadata := some {} }

def avatarConverter : Converter :=
  { options := { target := .vue, typescript := false, formatTimeout := .whole 1 } }

/-- The head of a forest that is one element without content. -/
def bareHead? : List Node → Option Head
  | [.element h []] => some h
  | _ => none

theorem bareHead?_eq_some {nodes : List Node} {h : Head} (bare : bareHead? nodes = some h) :
    nodes = [.element h []] := by
  unfold bareHead? at bare
  split at bare
  · rw [Option.some.inj bare]
  · simp at bare

theorem read_avatar : ∃ parsed,
    readSource avatarSource { normalizePrimitives := false } none = .ok parsed ∧
      Converter.choose (consolidated parsed) none none = .ok avatar := by
  have checked : (readSource avatarSource { normalizePrimitives := false } none >>= fun parsed =>
      Converter.choose (consolidated parsed) none none).toOption.any (fun k =>
        bareHead? k.root = some avatarHead ∧ k.name = "Avatar" ∧ k.props = [] ∧ k.isReExport = false ∧
        k.reExportTarget = none ∧ k.variantName = none ∧ k.refForward = none ∧ k.baseClasses = none ∧
        k.state = [] ∧ k.effects = [] ∧ k.metadata = some {}) = true := by
    have chars : avatarSource = String.ofList _ := rfl
    rw [chars, readSource, String.toList_ofList, Tsx.parse?_ofList]
    decide +kernel
  obtain ⟨parsed, k, read, found, shape⟩ := exists_ok_of_any checked
  refine ⟨parsed, read, ?_⟩
  rw [found]
  obtain ⟨name, root⟩ := k
  simp only [decide_eq_true_eq] at shape
  obtain ⟨bare, rfl, rfl, rfl, rfl, rfl, rfl, rfl, rfl, rfl, rfl⟩ := shape
  rw [bareHead?_eq_some bare]
  rfl

/-- The avatar as it is generated around its template. -/
def avatarFile (template : String) : Generated :=
  { name := "Avatar", target := .vue
    declarations := [{
      kind := .propBinding, name := "props", code := "const props = defineProps(\x7b\x7d);" }]
    declarationBlock := "<script setup>\nconst props = defineProps(\x7b\x7d);\n</script>"
    markupBlock := "<template>\n" ++ indentLines template ++ "\n</template>"
    filename := "Avatar.vue" }

/-- The avatar as it is, or with its native tag, and its template. -/
def avatarTemplate : (early : Bool) → Component × String
  | false => (avatar, "<component :is=\"AvatarPrimitive.Root\" v-bind=\"$attrs\"><slot /></component>")
  | true => (nativeComponent avatar, "<span v-bind=\"$attrs\"><slot /></span>")

theorem generate_avatar (early : Bool) :
    generate (avatarTemplate early).1 avatarConverter.options =
      .ok (avatarFile (avatarTemplate early).2) := by
  have metadata : metadataOf (avatarTemplate early).1 = {} := by cases early <;> rfl
  generalize shape : avatarTemplate early = entry at *
  have template : Vue.template ⟨entry.1, {}⟩ (markupOf entry.1 {}) = .ok entry.2 := by
    cases early <;> subst shape <;> decide +kernel
  have merges : Vue.callsMerge ⟨entry.1, {}⟩ (markupOf entry.1 {}) = false := by
    cases early <;> subst shape <;> decide +kernel
  -- there is one declaration only, so sorting, which does not compute, changes nothing
  have single : Vue.declarations entry.1 entry.1.props {} avatarConverter.options false =
      (avatarFile entry.2).declarations := by
    cases early <;> subst shape <;> exact List.mergeSort_singleton _
  have vue : generate entry.1 avatarConverter.options = Vue.generate entry.1 avatarConverter.options := rfl
  rw [vue, Vue.generate, metadata, template, merges, single]
  cases early <;> subst shape <;> decide +kernel

theorem readable_attrs : Readable "v-bind=\"$attrs\"".toList where
  balanced := by
    have front : Balanced false "v-bind=".toList := by
      have checked : "v-bind=".toList.all isPlainChar = true := rfl
      exact .of_plain false (List.all_eq_true.mp checked)
    have value : Balanced false ('"' :: ("$attrs".toList ++ ['"'])) :=
      .quoted (.inl rfl) (by decide) (.nil false)
    exact front.append value
  start := by decide

theorem fits_avatar : Fits avatarConverter.options avatar where
  forest := by
    intro n member
    simp only [avatar, Node.preorderList, Node.preorder, List.append_nil, List.mem_singleton] at member
    rw [member]
    intro wrapped
    refine ⟨by decide +kernel, fun isVoid => absurd isVoid (by decide +kernel), fun isRoot a member => ?_⟩
    have checked : (attributesFor .vue avatar {} avatarHead isRoot).all (fun a =>
        (Vue.spelling ⟨avatar, {}⟩).attributeText a = "v-bind=\"$attrs\"") = true := by
      cases isRoot <;> decide +kernel
    have text := of_decide_eq_true (List.all_eq_true.mp checked a member)
    exact text ▸ readable_attrs
  plain := by
    intro l written
    obtain rfl := Except.ok.inj ((generate_avatar false).symm.trans written)
    exact ⟨by decide +kernel, by decide +kernel, by decide +kernel⟩
  native := by
    intro r written
    obtain rfl := Except.ok.inj ((generate_avatar true).symm.trans written)
    exact ⟨⟨by decide +kernel, by decide +kernel, by decide +kernel⟩, by decide +kernel⟩
  scripts := by
    intro l r writtenL writtenR
    obtain rfl := Except.ok.inj ((generate_avatar false).symm.trans writtenL)
    obtain rfl := Except.ok.inj ((generate_avatar true).symm.trans writtenR)
    exact .inl rfl

theorem resolve_avatar : (normalizing avatarConverter false).resolve { source := avatarSource } =
    .ok (earlier false avatarConverter.options) := rfl

theorem convert_normalized_avatar :
    ∃ a b, (·.code) <$> (normalizing avatarConverter false).convert { source := avatarSource } = .ok a ∧
      (·.code) <$> (normalizing avatarConverter true).convert { source := avatarSource } = .ok b ∧
      SameBehindScript a b := by
  obtain ⟨parsed, read, found⟩ := read_avatar
  have alike := convert_normalized avatarConverter ⟨rfl, rfl, rfl⟩ { source := avatarSource } (by
    intro o parsed' k resolved read' found'
    obtain rfl : avatarConverter.options = o := Except.ok.inj resolved
    obtain rfl := Except.ok.inj (read.symm.trans read')
    obtain rfl := Except.ok.inj (found.symm.trans found')
    exact fits_avatar)
  have converted := convert_code_of_ok ⟨rfl, rfl, rfl⟩ resolve_avatar read found
  have generated : generate avatar (earlier false avatarConverter.options) = _ := generate_avatar false
  rw [generated] at converted
  obtain ⟨b, native, same⟩ := alike.exists_ok converted
  exact ⟨_, b, converted, native, same⟩

end Recast.Normalize
