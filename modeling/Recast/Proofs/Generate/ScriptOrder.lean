import Mathlib.Data.List.Sort
import Recast.Generate.Svelte.Script
import Recast.Proofs.Normalize.Indent
import Recast.Proofs.Sorting
import Recast.Proofs.Text.InOrder

/-!
# The order of a script

Sorting keeps the order within each kind, and two sorted lists with the same declarations of each kind are equal.
So a script is a function of its kinds: how they are mixed with each other makes no difference.
-/

set_option autoImplicit false

namespace Recast.Generate

def ofKind (kind : DeclarationKind) (ds : List Declaration) : List Declaration := ds.filter (·.kind = kind)

def DeclarationKind.inOrder : List DeclarationKind :=
  [importing, variant, propType, propBinding, emits, derived, ref, state, effect, handler]

theorem DeclarationKind.mem_inOrder (kind : DeclarationKind) : kind ∈ inOrder := by
  cases kind <;> decide

theorem DeclarationKind.inOrder_pairwise : inOrder.Pairwise (·.rank < ·.rank) := by decide

theorem ofKind_filter_ne {kind other : DeclarationKind} (apart : kind ≠ other) (ds : List Declaration) :
    ofKind kind (ds.filter (·.kind ≠ other)) = ofKind kind ds := by
  rw [ofKind, List.filter_filter]
  refine List.filter_congr fun d _ => ?_
  by_cases own : d.kind = kind
  · simp [own, apart]
  · simp [own]

/-! ## Sorted lists -/

def Sorted (ds : List Declaration) : Prop := ds.Pairwise (·.kind.rank ≤ ·.kind.rank)

theorem sortDeclarations_sorted (ds : List Declaration) : Sorted (sortDeclarations ds) :=
  pairwise_mergeSort_key (fun d : Declaration => d.kind.rank) ds

/-- Sorting is stable. -/
theorem ofKind_sortDeclarations (kind : DeclarationKind) (ds : List Declaration) :
    ofKind kind (sortDeclarations ds) = ofKind kind ds := by
  refine filter_mergeSort_key (fun d : Declaration => d.kind.rank) (fun a b first second => ?_) ds
  rw [of_decide_eq_true first, of_decide_eq_true second]

/-- The least kind of a sorted list stands in front. -/
theorem Sorted.eq_ofKind_append {kind : DeclarationKind} {ds : List Declaration} (sorted : Sorted ds)
    (least : ∀ d ∈ ds, d.kind ≠ kind → kind.rank < d.kind.rank) :
    ds = ofKind kind ds ++ ds.filter (·.kind ≠ kind) := by
  induction ds with
  | nil => rfl
  | cons d ds ih =>
    obtain ⟨first, sorted⟩ := List.pairwise_cons.mp sorted
    have rest := ih sorted fun e inside => least e (.tail _ inside)
    by_cases own : d.kind = kind
    · simpa [ofKind, own] using rest
    · have none : ofKind kind ds = [] := by
        refine List.filter_eq_nil_iff.mpr fun e inside same => ?_
        have above := least d List.mem_cons_self own
        have below := first e inside
        rw [of_decide_eq_true same] at below
        omega
      rw [none, List.nil_append] at rest
      have front : ofKind kind (d :: ds) = [] := by
        rw [ofKind, List.filter_cons_of_neg (by simpa using own)]
        exact none
      rw [front, List.nil_append, List.filter_cons_of_pos (by simpa using own), ← rest]

/-- A sorted list is its kinds one behind the other. -/
theorem Sorted.eq_flatMap {kinds : List DeclarationKind} (apart : kinds.Pairwise (·.rank < ·.rank))
    {ds : List Declaration} (sorted : Sorted ds) (listed : ∀ d ∈ ds, d.kind ∈ kinds) :
    ds = kinds.flatMap (ofKind · ds) := by
  induction kinds generalizing ds with
  | nil => exact List.eq_nil_iff_forall_not_mem.mpr fun d inside => List.not_mem_nil (listed d inside)
  | cons kind kinds ih =>
    obtain ⟨first, apart⟩ := List.pairwise_cons.mp apart
    have later : ∀ d ∈ ds, d.kind ≠ kind → d.kind ∈ kinds := fun d inside other =>
      (List.mem_cons.mp (listed d inside)).resolve_left other
    have rest := ih apart (sorted.filter _) fun d inside => by
      obtain ⟨inside, other⟩ := List.mem_filter.mp inside
      exact later d inside (of_decide_eq_true other)
    have others : kinds.flatMap (ofKind · (ds.filter (·.kind ≠ kind))) = kinds.flatMap (ofKind · ds) := by
      refine List.flatMap_congr fun other inside => ofKind_filter_ne ?_ ds
      rintro rfl
      exact Nat.lt_irrefl _ (first other inside)
    rw [others] at rest
    rw [List.flatMap_cons, ← rest]
    exact sorted.eq_ofKind_append fun d inside other => first _ (later d inside other)

end Recast.Generate

namespace Recast.Normalize

open Recast.Text

/-! ## Parts of an indented text -/

/-- The places where a line starts. -/
def Place.IsFresh : Place → Prop
  | start => True
  | inside => False
  | ended isReturn => isReturn = false

theorem Place.behind_append (place : Place) (front back : List Char) :
    place.behind (front ++ back) = (place.behind front).behind back := List.foldl_append

theorem Place.behind_lineFeed (place : Place) : place.behind ['\n'] = .ended false := by
  rcases place with _ | _ | ⟨_ | _⟩ <;> decide

theorem Place.IsFresh.shift {place : Place} (fresh : place.IsFresh) (text : List Char) :
    ∃ gap, Normalize.shift place text = gap ++ Normalize.shift .start text := by
  cases place with
  | start => exact ⟨[], rfl⟩
  | inside => exact fresh.elim
  | ended isReturn =>
    obtain rfl : isReturn = false := fresh
    cases text with
    | nil => exact ⟨[], rfl⟩
    | cons c text =>
      refine ⟨['\n'], ?_⟩
      cases lineEnd : isLineEnd c with
      | false => rw [shift_of_not_lineEnd lineEnd, shift_of_not_lineEnd lineEnd]; rfl
      | true =>
        rw [Normalize.shift, Normalize.shift, shiftChar_of_lineEnd lineEnd (by decide),
          shiftChar_of_lineEnd lineEnd (by decide)]
        rfl

/-- A part that starts on a line of its own. -/
theorem Place.IsFresh.standInOrder {place : Place} (fresh : place.IsFresh) (part : List Char) :
    StandInOrder [Normalize.shift .start part] (Normalize.shift place part) := by
  obtain ⟨gap, same⟩ := fresh.shift part
  have last := @StandInOrder.cons gap (Normalize.shift .start part) [] [] .nil
  rwa [List.append_nil, ← same] at last

/-- What stands in parts that start on lines of their own stands in them together. -/
theorem standInOrder_joinChars (gap : List Char) {parts : List (List Char)} {blocks : List (List (List Char))}
    (each : List.Forall₂ (fun own part => ∀ place : Place, place.IsFresh → StandInOrder own (shift place part))
      blocks parts) {place : Place} (fresh : place.IsFresh) :
    StandInOrder blocks.flatten (shift place (joinChars (gap ++ ['\n']) parts)) := by
  have lineStart : (Place.ended false).IsFresh := rfl
  induction each generalizing place with
  | nil => exact .nil
  | cons here each ih =>
    cases each with
    | nil => simpa [joinChars] using here place fresh
    | cons next each =>
      rw [joinChars, List.append_assoc, shift_append, shift_append, Place.behind_append, Place.behind_lineFeed,
        List.flatten_cons]
      · exact (here place fresh).append ((ih lineStart).behind _)
      · exact List.cons_ne_nil _ _

theorem forall₂_standInOrder (texts : List (List Char)) :
    List.Forall₂ (fun own part => ∀ place : Place, place.IsFresh → StandInOrder own (shift place part))
      (texts.map fun text => [shift .start text]) texts := by
  rw [List.forall₂_map_left_iff, List.forall₂_same]
  exact fun text _ place fresh => fresh.standInOrder text

theorem standInOrder_lines (texts : List (List Char)) {place : Place} (fresh : place.IsFresh) :
    StandInOrder (texts.map (shift .start)) (shift place (joinChars ['\n'] texts)) := by
  have joined := standInOrder_joinChars [] (forall₂_standInOrder texts) fresh
  rwa [← List.flatMap_def, ← List.map_eq_flatMap] at joined

end Recast.Normalize

namespace Recast.Generate.Svelte

open Recast.Text Recast.Normalize

/-! ## The sections of a script -/

/-- The kinds that are written. -/
def writtenKinds (typescript : Bool) : List DeclarationKind :=
  DeclarationKind.inOrder.filter fun kind => typescript || kind != .propType

/-- The kinds that have sections of their own. -/
def sectionKinds (typescript : Bool) : List DeclarationKind := (writtenKinds typescript).filter (· ≠ .importing)

/-- The import statements of a script with the given declarations of each kind. -/
def importsOfKinds (of : DeclarationKind → List Declaration) (runes : Bool) : List String :=
  (if runes || (of .effect).isEmpty then [] else ["import \x7b onMount \x7d from \"svelte\";"])
    ++ (of .importing).map (·.code)

/-- A script with the given declarations of each kind. -/
def scriptOfKinds (of : DeclarationKind → List Declaration) (runes typescript : Bool) : String :=
  let imports := importsOfKinds of runes
  let texts := ((sectionKinds typescript).flatMap of).map (declarationText · runes typescript)
  let body := (if imports = [] then [] else [join "\n" imports]) ++ texts.filter (· ≠ "")
  (if typescript then "<script lang=\"ts\">" else "<script>") ++ "\n" ++ indentLines (join "\n\n" body)
    ++ "\n</script>"

theorem importLines_sortDeclarations (ds : List Declaration) (runes : Bool) :
    importLines (sortDeclarations ds) runes = importsOfKinds (ofKind · ds) runes := by
  have effects : (sortDeclarations ds).any (·.kind == .effect) = !(ofKind .effect ds).isEmpty := by
    rw [← ofKind_sortDeclarations, ofKind, Bool.eq_iff_iff]
    simp
  have imports : (sortDeclarations ds).filter (·.kind == .importing) = ofKind .importing ds :=
    ofKind_sortDeclarations .importing ds
  rw [importLines, importsOfKinds, effects, imports]
  cases runes <;> cases (ofKind .effect ds).isEmpty <;> rfl

theorem hasSection_iff {typescript : Bool} {d : Declaration} :
    hasSection typescript d = true ↔ d.kind ∈ sectionKinds typescript := by
  rw [sectionKinds, writtenKinds, List.mem_filter, List.mem_filter, hasSection]
  have listed := d.kind.mem_inOrder
  simp [listed, and_comm]

theorem filter_hasSection_sortDeclarations (ds : List Declaration) (typescript : Bool) :
    (sortDeclarations ds).filter (hasSection typescript) = (sectionKinds typescript).flatMap (ofKind · ds) := by
  have apart : (sectionKinds typescript).Pairwise (·.rank < ·.rank) :=
    (DeclarationKind.inOrder_pairwise.filter _).filter _
  have sorted : Sorted ((sortDeclarations ds).filter (hasSection typescript)) :=
    (sortDeclarations_sorted ds).filter _
  rw [sorted.eq_flatMap apart fun d inside => hasSection_iff.mp (List.mem_filter.mp inside).2]
  refine List.flatMap_congr fun kind listed => ?_
  rw [← ofKind_sortDeclarations kind ds, ofKind, List.filter_filter]
  refine List.filter_congr fun d _ => ?_
  by_cases own : d.kind = kind
  · simp [own, hasSection_iff, listed]
  · simp [own]

/-- A script is a function of its kinds. -/
theorem script_eq_scriptOfKinds (ds : List Declaration) (runes typescript : Bool) :
    script ds runes typescript = scriptOfKinds (ofKind · ds) runes typescript := by
  rw [script, sections, importLines_sortDeclarations, filter_hasSection_sortDeclarations, scriptOfKinds]
  cases importsOfKinds (ofKind · ds) runes <;> rfl

def blocksOf (texts : List String) : List (List Char) := texts.map fun text => (indentLines text).toList

theorem blocksOf_eq (texts : List String) : blocksOf texts = (texts.map String.toList).map (shift .start) := by
  rw [blocksOf, List.map_map]
  exact List.map_congr_left fun text _ => toList_indentLines text

theorem blocksOf_append (texts others : List String) :
    blocksOf (texts ++ others) = blocksOf texts ++ blocksOf others := List.map_append

/-- Import statements on lines of their own and other texts behind them, with an empty line between each two. -/
theorem standInOrder_body (imports others : List String) :
    StandInOrder (blocksOf imports ++ blocksOf others)
      (indentLines (join "\n\n"
        ((if imports = [] then [] else [join "\n" imports]) ++ others.filter (· ≠ "")))).toList := by
  have fresh : Place.start.IsFresh := trivial
  refine StandInOrder.of_filter (p := (· ≠ "")) (by simp [toList_indentLines, shift]) (blocksOf imports) ?_
  rw [toList_indentLines, toList_join, List.map_append, blocksOf_eq]
  have each := forall₂_standInOrder ((others.filter (· ≠ "")).map String.toList)
  have texts : ((others.filter (· ≠ "")).map String.toList).map (shift .start) =
      (((others.filter (· ≠ "")).map String.toList).map fun text => [shift .start text]).flatten := by
    rw [← List.flatMap_def, ← List.map_eq_flatMap]
  have same := blocksOf_eq (others.filter (· ≠ ""))
  rw [blocksOf] at same
  rw [same, texts]
  by_cases none : imports = []
  · subst none
    exact standInOrder_joinChars ['\n'] each fresh
  · have grouped : ∀ place : Place, place.IsFresh → StandInOrder ((imports.map String.toList).map (shift .start))
        (shift place (join "\n" imports).toList) := fun place fresh => by
      rw [toList_join]
      exact standInOrder_lines _ fresh
    rw [if_neg none]
    exact standInOrder_joinChars ['\n'] (.cons grouped each) fresh

theorem writtenKinds_eq (typescript : Bool) : writtenKinds typescript = .importing :: sectionKinds typescript := by
  cases typescript <;> rfl

theorem declarationText_of_importing {d : Declaration} (importing : d.kind = .importing) (runes typescript : Bool) :
    declarationText d runes typescript = d.code := by
  rw [declarationText, importing]

/-- Every declaration that a script writes stands in it, in the order of the kinds. -/
theorem standInOrder_scriptOfKinds (ds : List Declaration) (runes typescript : Bool) :
    StandInOrder
      (blocksOf (((writtenKinds typescript).flatMap (ofKind · ds)).map (declarationText · runes typescript)))
      (scriptOfKinds (ofKind · ds) runes typescript).toList := by
  have codes : (ofKind .importing ds).map (declarationText · runes typescript) =
      (ofKind .importing ds).map (·.code) :=
    List.map_congr_left fun d inside =>
      declarationText_of_importing (of_decide_eq_true (List.mem_filter.mp inside).2) runes typescript
  rw [writtenKinds_eq, List.flatMap_cons, List.map_append, codes]
  have body := standInOrder_body (importsOfKinds (ofKind · ds) runes)
    (((sectionKinds typescript).flatMap (ofKind · ds)).map (declarationText · runes typescript))
  -- the import for effects is not a declaration
  have imports : blocksOf (importsOfKinds (ofKind · ds) runes) =
      blocksOf _ ++ blocksOf ((ofKind .importing ds).map (·.code)) := blocksOf_append _ _
  rw [imports, List.append_assoc, ← blocksOf_append] at body
  rw [scriptOfKinds, String.toList_append, String.toList_append]
  exact (body.of_append.behind _).before _

/-- How declarations of different kinds are mixed makes no difference to a script. -/
theorem script_of_kinds {ds es : List Declaration} (same : ∀ kind, ofKind kind ds = ofKind kind es)
    (runes typescript : Bool) :
    script ds runes typescript = script es runes typescript ∧
      script ds runes typescript = scriptOfKinds (ofKind · ds) runes typescript ∧
      StandInOrder
        (blocksOf (((writtenKinds typescript).flatMap (ofKind · ds)).map (declarationText · runes typescript)))
        (script ds runes typescript).toList := by
  have alike : (ofKind · ds) = (ofKind · es) := funext same
  have written := script_eq_scriptOfKinds ds runes typescript
  refine ⟨?_, written, ?_⟩
  · rw [written, alike, ← script_eq_scriptOfKinds]
  · rw [written]
    exact standInOrder_scriptOfKinds ds runes typescript

/-- Declarations of five kinds, two of them states, in the order in which something asks for them. -/
def asked : List Declaration := [
  { kind := .effect, value := "log();" },
  { kind := .state, name := "isOpen", value := "false" },
  { kind := .propType, code := "  label?: string;" },
  { kind := .importing, code := "import \"a\";" },
  { kind := .state, name := "count", value := "0" },
  { kind := .propBinding, bindings := [{ name := "label" }] }]

/-- The same declarations, kind by kind. -/
def grouped : List Declaration := [
  { kind := .importing, code := "import \"a\";" },
  { kind := .propType, code := "  label?: string;" },
  { kind := .propBinding, bindings := [{ name := "label" }] },
  { kind := .state, name := "isOpen", value := "false" },
  { kind := .state, name := "count", value := "0" },
  { kind := .effect, value := "log();" }]

/-- The import, the prop type and its binding, both states and the effect, in this order. -/
theorem script_of_kinds_mixed :
    (∀ kind, ofKind kind asked = ofKind kind grouped) ∧
    script asked true true = script grouped true true ∧
    script asked true true = scriptOfKinds (ofKind · asked) true true ∧
    StandInOrder (blocksOf ["import \"a\";", "interface Props \x7b\n  label?: string;\n\x7d",
        "let \x7b\n  label\n\x7d: Props = $props();", "let isOpen = $state(false);", "let count = $state(0);",
        "$effect(() => \x7b\n  log();\n\x7d);"])
      (script asked true true).toList := by
  have same : ∀ kind, ofKind kind asked = ofKind kind grouped := by
    intro kind
    cases kind <;> rfl
  obtain ⟨alike, written, blocks⟩ := script_of_kinds same true true
  have texts : ((writtenKinds true).flatMap (ofKind · asked)).map (declarationText · true true) =
      ["import \"a\";", "interface Props \x7b\n  label?: string;\n\x7d",
        "let \x7b\n  label\n\x7d: Props = $props();", "let isOpen = $state(false);", "let count = $state(0);",
        "$effect(() => \x7b\n  log();\n\x7d);"] := by decide +kernel
  rw [texts] at blocks
  exact ⟨same, alike, written, blocks⟩

end Recast.Generate.Svelte
