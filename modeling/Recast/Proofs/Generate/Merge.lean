import Recast.Proofs.ClassExpr.Calls
import Recast.Proofs.Generate.Carried
import Recast.Proofs.Generate.Quoting
import Recast.Proofs.Generate.ScriptOrder

/-!
# Importing the merging helper

Calls of the merging helper are carried over with the expressions that hold them, but whether a script
imports it is decided by the classes of its elements alone.
-/

set_option autoImplicit false

namespace Recast.ClassExpr

open Recast.Text

/-- A call of the merging helper: its name, which is joined to nothing in front of it, and an opening
parenthesis, with blanks between them or not. -/
def CallsMerge (code : String) : Prop :=
  ∃ front blanks back : List Char, code.toList = front ++ (mergeName ++ (blanks ++ '(' :: back)) ∧
    (∀ b ∈ blanks, isBlank b = true) ∧ front.getLast?.any joinsName = false

theorem usesMerge_iff (code : String) : usesMerge code = true ↔ CallsMerge code :=
  findCall?_isSome_iff mergeName code.toList

end Recast.ClassExpr

namespace Recast.Generate

open Recast.ClassExpr Recast.Markup Recast.Text

/-! ## The import -/

/-- The import of the merging helper from the module that the options name. -/
def mergeImport (o : Options) : String :=
  "import \x7b cn \x7d from " ++ quoteOf o.target ++ o.classMergePath.display ++ quoteOf o.target ++ ";"

def ImportsMerge (ds : List Declaration) (o : Options) : Prop :=
  ∃ d ∈ ds, d.kind = .importing ∧ d.code = mergeImport o

/-- An import of the source is spelled like the import of the helper. The name of the helper is taken out
of the names of an import, so the text would have to come from elsewhere in it. -/
def CarriesMerge (m : Metadata) (o : Options) : Prop :=
  ∃ i ∈ carriedImports m.imports o.target, renderImport i (quoteOf o.target) = mergeImport o

/-- Names that start in another way are not the helper's. -/
theorem importText_ne {names back back' : String} (long : 2 ≤ names.toList.length)
    (other : names.toList.take 2 ≠ ['c', 'n']) :
    "import \x7b " ++ ("cn" ++ back') ≠ "import \x7b " ++ (names ++ back) := by
  intro same
  have chars := congrArg String.toList same.symm
  simp only [String.toList_append] at chars
  have start := congrArg (List.take 2) (List.append_cancel_left chars)
  rw [List.take_append_of_le_length long] at start
  exact other start

/-- Where the imports among some declarations are those of a list, the helper is imported if it is listed. -/
theorem importsMerge_iff {ds : List Declaration} {texts : List String} (o : Options)
    (same : ofKind .importing ds = texts.map fun code => { kind := .importing, code }) :
    ImportsMerge ds o ↔ mergeImport o ∈ texts := by
  constructor
  · rintro ⟨d, member, kind, code⟩
    have listed : d ∈ ofKind .importing ds := List.mem_filter.mpr ⟨member, decide_eq_true kind⟩
    rw [same] at listed
    obtain ⟨text, found, rfl⟩ := List.mem_map.mp listed
    exact code ▸ found
  · intro found
    have listed := List.mem_map_of_mem (f := fun code => ({ kind := .importing, code } : Declaration)) found
    rw [← same] at listed
    obtain ⟨member, kind⟩ := List.mem_filter.mp listed
    exact ⟨_, member, of_decide_eq_true kind, rfl⟩

namespace Svelte

theorem ofKind_importing (c : Component) (props : List Property) (m : Metadata) (o : Options) (merges : Bool) :
    ofKind .importing (declarations c props m o merges) =
      (imports o m (rootElementType c m) merges).map fun code => { kind := .importing, code } := by
  rw [declarations, ofKind_sortDeclarations, ofKind]
  have typed : ∀ elementType planned,
      (if o.typescript then [propTypeOf c m planned elementType] else []).filter (·.kind = .importing) = [] := by
    intro elementType planned
    split <;> rfl
  simp only [List.filter_append, List.filter_map, Function.comp_def, typed, reduceCtorEq, decide_false,
    decide_true, List.filter_true, List.filter_false, List.map_nil, List.filter_cons_of_neg,
    List.filter_nil, List.append_nil, Bool.false_eq_true, not_false_eq_true]

theorem importNames_merge {o : Options} (svelte : o.target = .svelte) :
    importNames "cn" o.classMergePath.display = mergeImport o := by
  have start : "import \x7b " ++ "cn" ++ " \x7d from \"" = "import \x7b cn \x7d from " ++ "\"" := by decide
  have back : "\";" = "\"" ++ ";" := by decide
  have quoted : quoteOf o.target = "\"" := by
    rw [svelte]
    rfl
  unfold mergeImport importNames
  rw [quoted, start, back, ← String.append_assoc]

theorem importNames_ne {names : String} (long : 2 ≤ names.toList.length)
    (other : names.toList.take 2 ≠ ['c', 'n']) (source source' : String) :
    importNames "cn" source' ≠ importNames names source := by
  simp only [importNames, String.append_assoc]
  exact importText_ne long other

theorem mem_imports_iff {o : Options} (svelte : o.target = .svelte) {m : Metadata} {elementType : String}
    {merges : Bool} :
    mergeImport o ∈ imports o m elementType merges ↔ merges = true ∨ CarriesMerge m o := by
  have helper := importNames_merge svelte
  have table : mergeImport o ∉ (if m.variant.isSome then
      [importNames (if o.typescript then "cva, type VariantProps" else "cva") "class-variance-authority"]
      else []) := by
    rw [← helper]
    split
    · rw [List.mem_singleton]
      split
      · exact importNames_ne (by decide) (by decide) _ _
      · exact importNames_ne (by decide) (by decide) _ _
    · exact List.not_mem_nil
  have types : mergeImport o ∉ (if o.typescript then
        ["import type \x7b " ++ Catalog.svelteAttributesImport elementType ++ " \x7d from \"svelte/elements\";"]
      else []) := by
    split
    · rw [List.mem_singleton]
      intro same
      have chars := congrArg (fun text => text.toList.take 8) same
      unfold mergeImport at chars
      simp only [String.toList_append, List.append_assoc] at chars
      rw [List.take_append_of_le_length (by decide), List.take_append_of_le_length (by decide)] at chars
      exact absurd chars (by decide)
    · exact List.not_mem_nil
  rw [imports, List.mem_append, List.mem_append, List.mem_append, CarriesMerge, svelte, helper]
  have merged : mergeImport o ∈ (if merges then [mergeImport o] else []) ↔ merges = true := by
    cases merges <;> simp
  have others : mergeImport o ∈ (carriedImports m.imports .svelte).map (renderImport · quote) ↔
      ∃ i ∈ carriedImports m.imports .svelte, renderImport i (quoteOf .svelte) = mergeImport o := List.mem_map
  rw [merged, others]
  simp only [table, types, or_false]

end Svelte

namespace Vue

theorem ofKind_importing (c : Component) (props : List Property) (m : Metadata) (o : Options) (merges : Bool) :
    ofKind .importing (declarations c props m o merges) =
      (imports c o m merges).map fun code => { kind := .importing, code } := by
  rw [declarations, ofKind_sortDeclarations, ofKind]
  have typed : ∀ hasClass planned,
      (if o.typescript then [propTypeOf m planned hasClass] else []).filter (·.kind = .importing) = [] := by
    intro elementType planned
    split <;> rfl
  have emitted : ∀ subjects : List String,
      (if subjects.isEmpty then [] else [emitsOf props subjects o.typescript]).filter (·.kind = .importing) = [] := by
    intro subjects
    split <;> rfl
  have bound : ∀ bindings : List PropBinding,
      [propBindingOf bindings o.typescript].filter (·.kind = .importing) = [] := fun _ => rfl
  have label : ∀ p, (stateDeclaration p).kind = .derived := fun _ => rfl
  have ref : ∀ r, (refDeclaration m o.typescript r).kind = .ref := fun _ => rfl
  have changed : ∀ p, (toggle c p).kind = .handler := fun _ => rfl
  simp only [List.filter_append, List.filter_map, Function.comp_def, typed, emitted, bound, label, ref, changed,
    reduceCtorEq, decide_false, decide_true, List.filter_true, List.filter_false, List.map_nil, List.append_nil]

theorem importNames_merge {o : Options} (vue : o.target = .vue) :
    importNames "cn" o.classMergePath.display = mergeImport o := by
  have start : "import \x7b " ++ "cn" ++ " \x7d from '" = "import \x7b cn \x7d from " ++ "'" := by decide
  have back : "';" = "'" ++ ";" := by decide
  have quoted : quoteOf o.target = "'" := by
    rw [vue]
    rfl
  unfold mergeImport importNames
  rw [quoted, start, back, ← String.append_assoc]

theorem importNames_ne {names : String} (long : 2 ≤ names.toList.length)
    (other : names.toList.take 2 ≠ ['c', 'n']) (source source' : String) :
    importNames "cn" source' ≠ importNames names source := by
  simp only [importNames, String.append_assoc]
  exact importText_ne long other

theorem helpers_start (c : Component) (m : Metadata) :
    helpers c m = [] ∨ (2 ≤ (join ", " (helpers c m)).toList.length ∧
      (join ", " (helpers c m)).toList.take 2 ≠ ['c', 'n']) := by
  rw [helpers]
  cases m.statePattern.isSome <;> cases c.effects.isEmpty <;>
    cases (forwardedRef? c m).isSome || !c.state.isEmpty <;> decide

theorem mem_imports_iff {o : Options} (vue : o.target = .vue) {c : Component} {m : Metadata} {merges : Bool} :
    mergeImport o ∈ imports c o m merges ↔
      merges = true ∨ (m.baseClasses.filter (· ≠ "")).isSome = true ∨ CarriesMerge m o := by
  have helper := importNames_merge vue
  have table : mergeImport o ∉ (if m.variant.isSome then [importNames "cva" "class-variance-authority"] else []) := by
    rw [← helper]
    split
    · rw [List.mem_singleton]
      exact importNames_ne (by decide) (by decide) _ _
    · exact List.not_mem_nil
  have merged : mergeImport o ∈ (if merges || (m.baseClasses.filter (· ≠ "")).isSome then [mergeImport o] else []) ↔
      merges = true ∨ (m.baseClasses.filter (· ≠ "")).isSome = true := by
    cases merges <;> cases (m.baseClasses.filter (· ≠ "")).isSome <;> simp
  have others : mergeImport o ∈ (carriedImports m.imports .vue).map (renderImport · quote) ↔
      ∃ i ∈ carriedImports m.imports .vue, renderImport i (quoteOf .vue) = mergeImport o := List.mem_map
  rw [imports, List.mem_append, List.mem_append, List.mem_append, CarriesMerge, vue, helper, merged, others]
  simp only [table, or_false, or_assoc]
  refine or_iff_right ?_
  -- The names that are imported from the framework start in another way.
  rcases helpers_start c m with nothing | ⟨long, other⟩
  · rw [nothing]
    exact List.not_mem_nil
  · rw [← helper]
    split
    · exact List.not_mem_nil
    · rw [List.mem_singleton]
      exact importNames_ne long other _ _

end Vue

/-! ## Class bindings -/

theorem bindingRoute?_ne_classBinding (entry : String × Binding) : bindingRoute? entry ≠ some .classBinding := by
  rw [bindingRoute?]
  split
  · split <;> simp
  · simp
  · simp

theorem mem_headCode_classBinding {target : Target} {h : Head} {code : String} :
    (.classBinding, code) ∈ headCode target h ↔ ∃ b, h.bindings.get? classKey = some b ∧ b.code = code := by
  have refs : (Route.classBinding, code) ∉
      (if target = .svelte then ((h.bindings.get? refKey).map fun b => (Route.attribute, b.code)).toList else []) := by
    split <;> simp
  have others : (Route.classBinding, code) ∉
      h.bindings.filterMap fun entry => (bindingRoute? entry).map (·, entry.2.code) := by
    intro member
    obtain ⟨entry, -, found⟩ := List.mem_filterMap.mp member
    obtain ⟨route, isRoute, same⟩ := Option.map_eq_some_iff.mp found
    obtain rfl : route = .classBinding := congrArg Prod.fst same
    exact bindingRoute?_ne_classBinding entry isRoute
  rw [headCode, List.mem_append, List.mem_append]
  simp [refs, others]

/-- The classes that are carried over are the dynamic ones of the elements. -/
theorem exists_classBinding_iff (target : Target) (c : Component) (m : Metadata) (p : String → Bool) :
    (∃ e ∈ carried target c m, e.1 = .classBinding ∧ p e.2 = true) ↔
      (Node.preorderList (markupOf c m)).any (fun
        | .element h _ => (h.bindings.get? classKey).any fun b => p b.code
        | _ => false) = true := by
  rw [List.any_eq_true]
  constructor
  · rintro ⟨⟨route, code⟩, member, rfl, holds⟩
    simp only [carried, List.mem_append, List.mem_map, List.mem_flatMap] at member
    rcases member with (⟨n, inside, own⟩ | ⟨_, -, same⟩) | ⟨_, -, same⟩
    · refine ⟨n, inside, ?_⟩
      cases n with
      | element h children =>
        obtain ⟨b, found, rfl⟩ := mem_headCode_classBinding.mp own
        simpa [found] using holds
      | text content isExpression => cases isExpression <;> simp [nodeCode] at own
      | fragment children => cases own
      | guarded guard child => simp [nodeCode] at own
      | slot name => cases own
      | foreign typeName => cases own
    · cases same
    · cases same
  · rintro ⟨n, inside, holds⟩
    cases n with
    | element h children =>
      obtain ⟨b, found, calls⟩ := (Option.any_eq_true _ _).mp holds
      refine ⟨(.classBinding, b.code), ?_, rfl, calls⟩
      simp only [carried, List.mem_append, List.mem_flatMap]
      exact .inl (.inl ⟨_, inside, mem_headCode_classBinding.mpr ⟨b, found, rfl⟩⟩)
    | text content isExpression => cases holds
    | fragment children => cases holds
    | guarded guard child => cases holds
    | slot name => cases holds
    | foreign typeName => cases holds

theorem Svelte.callsMerge_iff (c : Component) (m : Metadata) (runes : Bool) :
    Svelte.callsMerge ⟨c, m, runes⟩ (markupOf c m) = true ↔
      ∃ e ∈ carried .svelte c m, e.1 = .classBinding ∧ CallsMerge (spelling .svelte c m e.1 e.2) := by
  rw [Svelte.callsMerge]
  refine (exists_classBinding_iff .svelte c m fun code =>
    usesMerge (spelling .svelte c m .classBinding code)).symm.trans ?_
  refine exists_congr fun e => and_congr_right fun _ => and_congr_right fun route => ?_
  rw [route, usesMerge_iff]

theorem Vue.callsMerge_iff (c : Component) (m : Metadata) :
    Vue.callsMerge ⟨c, m⟩ (markupOf c m) = true ↔
      ∃ e ∈ carried .vue c m, e.1 = .classBinding ∧ CallsMerge (spelling .vue c m e.1 e.2) := by
  rw [Vue.callsMerge]
  refine (exists_classBinding_iff .vue c m fun code =>
    usesMerge (spelling .vue c m .classBinding code)).symm.trans ?_
  refine exists_congr fun e => and_congr_right fun _ => and_congr_right fun route => ?_
  rw [route, usesMerge_iff]

/-- What a script imports the merging helper for: a class that calls it, or base classes in Vue. Every
expression that is carried over stands in the component, but calls on other routes do not count. -/
theorem merge_imported_iff {c : Component} (sound : Sound c.root) (o : Options) :
    ∃ g, generate c o = .ok g ∧
      (∀ e ∈ carried o.target c (metadataOf c), g.Holds (spelling o.target c (metadataOf c) e.1 e.2)) ∧
      (ImportsMerge g.declarations o ↔
        (∃ e ∈ carried o.target c (metadataOf c), e.1 = .classBinding ∧
          CallsMerge (spelling o.target c (metadataOf c) e.1 e.2)) ∨
        (o.target = .vue ∧ ((metadataOf c).baseClasses.filter (· ≠ "")).isSome = true) ∨
        CarriesMerge (metadataOf c) o) := by
  cases target : o.target with
  | svelte =>
    obtain ⟨g, generated, declared, holds⟩ := Svelte.generate_holds sound o
    refine ⟨g, by rw [generate, target]; exact generated, holds, ?_⟩
    rw [declared, importsMerge_iff o (Svelte.ofKind_importing ..), Svelte.mem_imports_iff target,
      Svelte.callsMerge_iff]
    simp only [reduceCtorEq, false_and, false_or]
  | vue =>
    obtain ⟨g, generated, declared, holds⟩ := Vue.generate_holds sound o
    refine ⟨g, by rw [generate, target]; exact generated, holds, ?_⟩
    rw [declared, importsMerge_iff o (Vue.ofKind_importing ..), Vue.mem_imports_iff target, Vue.callsMerge_iff]
    simp only [true_and]

/-- An element that calls the helper in an attribute of its own. -/
def decorated : Component :=
  { name := "Box"
    root := [.element { tag := "div", bindings := [("data-look", ⟨"cn(\"a\", look)", .expression⟩)] } []] }

theorem merge_imported_iff_decorated :
    ∃ g, generate decorated { target := .svelte, formatTimeout := .whole 1 } = .ok g ∧
      g.Holds "cn(\"a\", look)" ∧ CallsMerge "cn(\"a\", look)" ∧
      ¬ ImportsMerge g.declarations { target := .svelte, formatTimeout := .whole 1 } := by
  have sound : Sound decorated.root := by decide +kernel
  obtain ⟨g, generated, holds, imported⟩ :=
    merge_imported_iff sound { target := .svelte, formatTimeout := .whole 1 }
  have single : carried .svelte decorated (metadataOf decorated) = [(.attribute, "cn(\"a\", look)")] := by
    decide +kernel
  have same : spelling .svelte decorated (metadataOf decorated) .attribute "cn(\"a\", look)" = "cn(\"a\", look)" := by
    decide +kernel
  have calls : usesMerge "cn(\"a\", look)" = true := by decide +kernel
  refine ⟨g, generated, ?_, (usesMerge_iff _).mp calls, ?_⟩
  · rw [← same]
    exact holds (.attribute, "cn(\"a\", look)") (by rw [single]; exact List.mem_singleton.mpr rfl)
  · rw [imported, single]
    rintro (⟨e, member, route, -⟩ | ⟨other, -⟩ | ⟨i, member, -⟩)
    · rw [List.mem_singleton.mp member] at route
      cases route
    · cases other
    · cases member

end Recast.Generate
