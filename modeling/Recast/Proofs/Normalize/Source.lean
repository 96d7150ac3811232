import Recast.Convert
import Recast.Proofs.Normalize.Tree
import Recast.Proofs.Outcome

/-!
# Sources with wrapped primitives

Reading a source with normalization and without it gives the same components but for their markup,
and fails alike.
-/

set_option autoImplicit false

namespace Recast.Normalize

open Recast.Markup Recast.Analysis Recast.Tsx

def nativeComponent (c : Component) : Component := { c with root := c.root.map normalize }

theorem nativeComponent_of_rootless {c : Component} (rootless : c.root = []) : nativeComponent c = c := by
  rw [nativeComponent, rootless, List.map_nil, ← rootless]

/-! ## Components -/

/-- A computation whose result does not depend on the warnings in front of it. -/
def Steady {α : Type} (x : Noting α) : Prop := Mirrors id x x

theorem Steady.bind {α β : Type} {x : Noting α} {k : α → Noting β} (h : Steady x)
    (next : ∀ a, Steady (k a)) : Steady (x >>= k) :=
  Mirrors.bind h next

theorem Mirrors.steady_bind {α β γ : Type} {g : β → γ} {x : Noting α} {k : α → Noting β}
    {l : α → Noting γ} (h : Steady x) (next : ∀ a, Mirrors g (k a) (l a)) :
    Mirrors g (x >>= k) (x >>= l) :=
  Mirrors.bind h next

theorem addPrimitiveProps_steady (component : String) (propsType : Option String)
    (namespaces : Assoc String) (props : List Property) :
    Steady (addPrimitiveProps component propsType namespaces props) := by
  intro w w'
  rw [addPrimitiveProps]
  split
  · rfl
  · dsimp only
    split <;> rfl

theorem ownProps_steady (root : Tree) (req : PropsRequest) : Steady (ownProps root req) := by
  rw [ownProps]
  split
  · split
    · exact addPrimitiveProps_steady _ _ _ _
    · exact Mirrors.pure id _
  · exact Mirrors.pure id _

theorem collectProps_steady (root : Tree) (req : PropsRequest) : Steady (collectProps root req) :=
  (ownProps_steady root req).bind fun _ => Mirrors.pure id _

theorem propsOf_steady (root : Tree) (req : PropsRequest) : Steady (propsOf root req) := by
  refine (collectProps_steady root req).bind fun props => ?_
  intro w w'
  dsimp only
  split <;> rfl

theorem forwardRefOf_steady (call : Tree) (component : String) :
    Steady (forwardRefOf call component) := by
  intro w w'
  rw [forwardRefOf]
  split <;> rfl

theorem markupOf_mirrors (component : String) (function : Tree) :
    Mirrors (List.map normalize) (markupOf { normalizePrimitives := false } component function)
      (markupOf { normalizePrimitives := true } component function) := by
  rw [markupOf, markupOf]
  split
  · exact Mirrors.fixed _ rfl
  · exact convertRoot_mirrors component (tagAliases function) _

/-- Whether there is markup to warn about does not depend on normalization. -/
theorem noted_mirrors {α β : Type} {f : α → β} {x : Noting α} {y : Noting β} (h : Mirrors f x y)
    (message : String) (nodes : List Node) :
    Mirrors f (if nodes.isEmpty then warn message >>= fun _ => x else x)
      (if (nodes.map normalize).isEmpty then warn message >>= fun _ => y else y) := by
  have noted : Steady (warn message) := fun w w' => rfl
  rw [List.isEmpty_map]
  split
  · exact Mirrors.steady_bind noted fun _ => h
  · exact h

theorem build_mirrors (root : Tree) (shared : Shared) (found : Discovered) (function call : Option Tree) :
    Mirrors nativeComponent
      (componentOf.build root shared { normalizePrimitives := false } found function call)
      (componentOf.build root shared { normalizePrimitives := true } found function call) := by
  have ref : Steady (call.mapM fun c => forwardRefOf c found.name) := by
    cases call with
    | none => exact fun w w' => rfl
    | some call =>
      exact (forwardRefOf_steady call found.name).bind fun r => Mirrors.pure id (some r)
  rw [componentOf.build, componentOf.build]
  refine Mirrors.steady_bind ref fun refForward => ?_
  dsimp only
  split
  · refine (markupOf_mirrors found.name _).bind fun nodes => ?_
    refine noted_mirrors ?_ _ nodes
    exact Mirrors.steady_bind (propsOf_steady root _) fun props => Mirrors.pure nativeComponent _
  · refine (Mirrors.fixed [] rfl).bind fun nodes => ?_
    refine noted_mirrors ?_ _ nodes
    exact Mirrors.steady_bind (propsOf_steady root _) fun props => Mirrors.pure nativeComponent _

theorem componentOf_mirrors (root : Tree) (shared : Shared) (found : Discovered) :
    Mirrors nativeComponent (componentOf root shared { normalizePrimitives := false } found)
      (componentOf root shared { normalizePrimitives := true } found) := by
  rw [componentOf, componentOf]
  split
  · exact Mirrors.pure nativeComponent _
  · exact build_mirrors root shared found _ _
  · exact build_mirrors root shared found _ _

/-! ## Sources -/

/-- Two sources with the same components but for native tags. -/
structure SameSource (p q : ParsedSource) : Prop where
  components : q.components = p.components.map nativeComponent
  primary : q.primary = p.primary
  listed : ∀ k, p.primary ≠ .apart k
  shared : q.shared = p.shared

theorem componentsOf_native (root : Tree) :
    ((componentsOf root { normalizePrimitives := true }).run []).1 =
      ((((componentsOf root { normalizePrimitives := false }).run []).1.1,
        ((componentsOf root { normalizePrimitives := false }).run []).1.2.map nativeComponent)) := by
  let shared : Shared := {
    variantConfigs := ((variantConfigsOf root).run []).1, imports := importsOf root
    usesClassMerge := usesClassMerge root (importsOf root) }
  let noted := ((variantConfigsOf root).run []).2
  have components := Mirrors.mapM (componentOf_mirrors root shared) (discover root) noted noted
  exact congrArg (Prod.mk shared) components

theorem primaryOf_native (components : List Component) :
    primaryOf (components.map nativeComponent) = primaryOf components := by
  have same : (fun c : Component => !c.isReExport) ∘ nativeComponent = fun c => !c.isReExport := rfl
  rw [primaryOf, List.findIdx?_map, same, List.isEmpty_map, primaryOf]

theorem analyze_same (root : Tree) :
    SameSource (analyze root { normalizePrimitives := false })
      (analyze root { normalizePrimitives := true }) := by
  have native := componentsOf_native root
  refine ⟨?_, ?_, ?_, ?_⟩
  · exact congrArg Prod.snd native
  · have components := congrArg Prod.snd native
    exact (congrArg primaryOf components).trans (primaryOf_native _)
  · intro k apart
    have listed : ∀ components, primaryOf components ≠ .apart k := by
      intro components apart
      rw [primaryOf] at apart
      split at apart
      · simp at apart
      · split at apart <;> simp at apart
    exact listed _ apart
  · exact congrArg Prod.fst native

theorem readSource_alike (text : String) (path : Option String) :
    Alike SameSource (readSource text { normalizePrimitives := false } path)
      (readSource text { normalizePrimitives := true } path) := by
  rw [readSource, readSource]
  split
  · exact .ok ⟨rfl, rfl, by simp, rfl⟩
  · split
    · exact .ok (analyze_same _)
    · exact .error _

theorem SameSource.consolidated {p q : ParsedSource} (same : SameSource p q) :
    SameSource (Plugin.consolidated p) (Plugin.consolidated q) where
  components := by
    simp only [Plugin.consolidated, ParsedSource.updateConvertible, same.components, same.shared,
      List.map_map]
    refine List.map_congr_left fun c _ => ?_
    simp only [Function.comp_apply]
    cases reExport : c.isReExport with
    | false => simp [nativeComponent, reExport, Metadata.ofComponent]
    | true => simp [nativeComponent, reExport]
  primary := same.primary
  listed := same.listed
  shared := same.shared

theorem SameSource.convertibleNames_eq {p q : ParsedSource} (same : SameSource p q) :
    Converter.convertibleNames q = Converter.convertibleNames p := by
  have kept : (fun c : Component => !c.isReExport) ∘ nativeComponent = fun c => !c.isReExport := rfl
  have convertible : q.convertible = p.convertible.map nativeComponent := by
    rw [ParsedSource.convertible, same.components, List.filter_map, kept, ParsedSource.convertible]
  rw [Converter.convertibleNames, Converter.convertibleNames, convertible]
  cases p.convertible with
  | nil => rfl
  | cons c cs => simp [nativeComponent, Function.comp_def]

theorem SameSource.choose_alike {p q : ParsedSource} (same : SameSource p q) (name path : Option String) :
    Alike (fun k l => l = nativeComponent k) (Converter.choose p name path)
      (Converter.choose q name path) := by
  have kept : (fun c : Component => !c.isReExport) ∘ nativeComponent = fun c => !c.isReExport := rfl
  have found : ∀ name, q.find? name = (p.find? name).map nativeComponent := by
    intro name
    rw [ParsedSource.find?, same.components, List.find?_map, ParsedSource.find?]
    rfl
  have primary : q.primary? = p.primary?.map nativeComponent := by
    rw [ParsedSource.primary?, ParsedSource.primary?, same.primary, same.components]
    cases which : p.primary with
    | none => rfl
    | listed i => simp
    | apart k => exact absurd which (same.listed k)
  rw [Converter.choose, Converter.choose]
  split
  · rw [found, Option.filter_map, kept, same.convertibleNames_eq]
    cases (p.find? _).filter fun c => !c.isReExport with
    | none => exact .error _
    | some k => exact .ok rfl
  · rw [primary, Option.filter_map, kept]
    cases p.primary?.filter fun c => !c.isReExport with
    | none => exact .error _
    | some k => exact .ok rfl

end Recast.Normalize
