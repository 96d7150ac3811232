import Recast.Proofs.Generate.Merge
import Recast.Proofs.Normalize.Generate
import Recast.Proofs.Repair.ScriptFront

/-!
# The head of a script

A script that calls the merging helper imports it on its first lines. Only one import, from the framework, can stand in
front.
-/

set_option autoImplicit false

namespace Recast.Text

/-! ## First lines -/

/-- A text whose first lines are given. -/
def Heads (rows : List (List Char)) (text : List Char) : Prop :=
  ∃ back, text ++ ['\n'] = rows.flatMap (· ++ ['\n']) ++ back

theorem heads_joinChars {rows : List (List Char)} (nonempty : rows ≠ []) (others : List (List Char)) :
    Heads rows (joinChars ['\n'] (rows ++ others)) := by
  refine ⟨others.flatMap (· ++ ['\n']), ?_⟩
  rw [joinChars_append_singleton '\n' (by simp [nonempty]), List.flatMap_append]

theorem Heads.append_lineFeed {rows : List (List Char)} {text : List Char} (heads : Heads rows text)
    (more : List Char) : Heads rows (text ++ '\n' :: more) := by
  obtain ⟨back, shape⟩ := heads
  refine ⟨back ++ (more ++ ['\n']), ?_⟩
  rw [List.append_cons text '\n' more, shape]
  simp only [List.append_assoc]

theorem Heads.cons_cases {row : List Char} {rows : List (List Char)} {text : List Char} (heads : Heads (row :: rows) text) :
    (text = row ∧ rows = []) ∨ ∃ later, text = row ++ '\n' :: later ∧ Heads rows later := by
  obtain ⟨back, shape⟩ := heads
  rw [List.flatMap_cons, List.append_assoc, List.append_assoc, List.singleton_append] at shape
  generalize behind : rows.flatMap (· ++ ['\n']) ++ back = more at shape
  rcases List.eq_nil_or_concat more with rfl | ⟨later, last, rfl⟩
  · refine .inl ⟨List.append_cancel_right shape, ?_⟩
    cases rows with
    | nil => rfl
    | cons next rows => simp at behind
  · rw [List.concat_eq_append, ← List.cons_append, ← List.append_assoc] at shape
    obtain ⟨rfl, same⟩ := List.append_inj' shape rfl
    obtain rfl := (List.cons.inj same).1
    exact .inr ⟨later, rfl, back, by rw [behind, List.concat_eq_append]⟩

theorem Heads.joinChars {rows : List (List Char)} {part : List Char} (heads : Heads rows part)
    (parts : List (List Char)) : Heads rows (joinChars ['\n', '\n'] (part :: parts)) := by
  cases parts with
  | nil => exact heads
  | cons next parts =>
    rw [joinChars_cons_of_ne_nil (List.cons_ne_nil next parts), List.append_assoc]
    exact heads.append_lineFeed _

theorem Heads.ne_nil {rows : List (List Char)} {text : List Char} (heads : Heads rows text) (nonempty : rows ≠ [])
    (solid : ∀ row ∈ rows, row ≠ []) : text ≠ [] := by
  obtain ⟨row, rows, rfl⟩ := List.exists_cons_of_ne_nil nonempty
  rcases heads.cons_cases with ⟨rfl, -⟩ | ⟨later, rfl, -⟩
  · exact solid text List.mem_cons_self
  · simp

/-- There is no end of a line in a text. -/
def Unbroken (text : List Char) : Prop := ∀ c ∈ text, isLineEnd c = false

instance (text : List Char) : Decidable (Unbroken text) :=
  decidable_of_iff (text.all (!isLineEnd ·) = true) (by simp [Unbroken])

theorem Unbroken.append {front back : List Char} (hf : Unbroken front) (hb : Unbroken back) : Unbroken (front ++ back) :=
  fun c member => (List.mem_append.mp member).elim (hf c) (hb c)

theorem Unbroken.tail {c : Char} {text : List Char} (unbroken : Unbroken (c :: text)) : Unbroken text :=
  fun d member => unbroken d (.tail _ member)

/-- A row that indentation moves as a whole. -/
structure IsIndentable (row : List Char) : Prop where
  nonempty : row ≠ []
  unbroken : Unbroken row

theorem linesFrom_cons {c : Char} (plain : isLineEnd c = false) (cs : List Char) :
    linesFrom (c :: cs) = pushWord c (linesFrom cs) := by
  have other : c ≠ '\r' := by
    rintro rfl
    exact absurd plain (by decide)
  rw [linesFrom.eq_3 c cs fun rest same _ => other same, plain, if_neg Bool.false_ne_true]

theorem linesFrom_append_cons {row : List Char} (unbroken : Unbroken row) (rest : List Char) :
    linesFrom (row ++ '\n' :: rest) = row :: linesFrom rest := by
  induction row with
  | nil =>
    have ends : isLineEnd '\n' = true := by decide
    rw [List.nil_append, linesFrom.eq_3 _ _ (by simp), if_pos ends]
  | cons c row ih =>
    rw [List.cons_append, linesFrom_cons (unbroken c List.mem_cons_self), ih unbroken.tail]
    rfl

theorem linesFrom_row {row : List Char} (indentable : IsIndentable row) : linesFrom row = [row] := by
  obtain ⟨nonempty, unbroken⟩ := indentable
  induction row with
  | nil => exact absurd rfl nonempty
  | cons c row ih =>
    rw [linesFrom_cons (unbroken c List.mem_cons_self)]
    cases row with
    | nil => rfl
    | cons d row =>
      rw [ih (List.cons_ne_nil d row) unbroken.tail]
      rfl

theorem Heads.exists_linesFrom {rows : List (List Char)} (indentable : ∀ row ∈ rows, IsIndentable row)
    {text : List Char} (heads : Heads rows text) : ∃ others, linesFrom text = rows ++ others := by
  induction rows generalizing text with
  | nil => exact ⟨_, rfl⟩
  | cons row rows ih =>
    obtain ⟨here, later⟩ := List.forall_mem_cons.mp indentable
    rcases heads.cons_cases with ⟨rfl, rfl⟩ | ⟨text, rfl, behind⟩
    · exact ⟨[], linesFrom_row here⟩
    · obtain ⟨others, lines⟩ := ih later behind
      exact ⟨others, by rw [linesFrom_append_cons here.unbroken, lines]; rfl⟩

/-- Indentation moves the first lines one by one. -/
theorem Heads.indentLines {rows : List (List Char)} (nonempty : rows ≠ []) (indentable : ∀ row ∈ rows, IsIndentable row)
    {text : String} (heads : Heads rows text.toList) :
    Heads (rows.map Normalize.indented) (Generate.indentLines text).toList := by
  obtain ⟨others, lines⟩ := heads.exists_linesFrom indentable
  rw [Normalize.toList_indentLines, (Normalize.shift_eq_lines text.toList).1, lines, List.map_append]
  exact heads_joinChars (by simpa using nonempty) _

end Recast.Text

namespace Recast.Generate

open Recast.ClassExpr Recast.Markup Recast.Normalize Recast.Repair Recast.Text

/-! ## Lines of a head -/

/-- A line that imports names. -/
def importLine (target : Target) (names source : String) : ImportLine where
  indent := match target with
    | .svelte => indent.toList
    | .vue => []
  names := names.toList
  quote := delimiterOf target
  source := source.toList

def frameworkOf : Target → String
  | .svelte => "svelte"
  | .vue => "vue"

/-- What a script can import from its framework in front of the helper, where no text stands for nothing. -/
def frameworkNames : Target → List String
  | .svelte => ["", "onMount"]
  | .vue => ["", "computed", "onMounted", "ref", "computed, onMounted", "computed, ref", "onMounted, ref",
    "computed, onMounted, ref"]

/-- The lines of a head, given how an import of names from a module is written. -/
def head {α : Type} (line : (names source : String) → α) (framework names source : String) : List α :=
  (if names = "" then [] else [line names framework]) ++ [line "cn" source]

section Head

variable {α β : Type} {line : (names source : String) → α} {framework names source : String}

theorem head_ne_nil : head line framework names source ≠ [] := by simp [head]

theorem map_head (f : α → β) : (head line framework names source).map f =
    head (fun names source => f (line names source)) framework names source := by
  rw [head, head]
  split <;> rfl

theorem mem_head {x : α} (member : x ∈ head line framework names source) :
    (names ≠ "" ∧ x = line names framework) ∨ x = line "cn" source := by
  rw [head, List.mem_append, List.mem_singleton] at member
  refine member.imp_left fun inFront => ?_
  split at inFront
  · cases inFront
  · exact ⟨‹_›, List.mem_singleton.mp inFront⟩

end Head

def headLines (target : Target) (names source : String) : List ImportLine :=
  head (importLine target) (frameworkOf target) names source

/-- The front of a script that imports the helper from a module. -/
structure IsMergeFront (target : Target) (source : String) (s : ScriptFront) : Prop where
  opening : s.opening ∈ openings
  lines : ∃ names ∈ frameworkNames target, s.lines = headLines target names source

theorem importLine_isWritten {target : Target} {names source : String}
    (allowed : names = "cn" ∨ names ∈ frameworkNames target ∧ names ≠ "") (module : IsModule source.toList) :
    (importLine target names source).IsWritten := by
  have checked : ∀ target, ∀ names ∈ "cn" :: (frameworkNames target).filter (· ≠ ""),
      names.toList.all isListChar = true ∧ (listed (' ' :: (names.toList ++ [' ']))).all (fun name =>
        name ≠ "VariantProps".toList ∧ name ≠ "type VariantProps".toList) = true := by
    intro target
    cases target <;> decide
  obtain ⟨chars, kept⟩ := checked target names (by simpa using allowed)
  refine ⟨?_, List.all_eq_true.mp chars, fun name inside => of_decide_eq_true (List.all_eq_true.mp kept name inside), ?_,
    module⟩
  · cases target with
    | svelte =>
      have spaces : indent.toList.all isIndent = true := rfl
      exact List.all_eq_true.mp spaces
    | vue => simp [importLine]
  · cases target <;> rfl

theorem isModule_frameworkOf (target : Target) : IsModule (frameworkOf target).toList := by
  cases target <;> exact ⟨by decide, by decide, by decide⟩

theorem isQuiet_frameworkOf (target : Target) : IsQuiet (frameworkOf target).toList := by
  cases target <;> exact ⟨by decide, by decide⟩

namespace IsMergeFront

variable {target : Target} {source : String} {s : ScriptFront} (front : IsMergeFront target source s)

include front

theorem isWritten (module : IsModule source.toList) : s.IsWritten := by
  refine ⟨front.opening, fun l member => ?_⟩
  obtain ⟨names, listed, lines⟩ := front.lines
  rw [lines] at member
  rcases mem_head member with ⟨nonempty, rfl⟩ | rfl
  · exact importLine_isWritten (.inr ⟨listed, nonempty⟩) (isModule_frameworkOf target)
  · exact importLine_isWritten (.inl rfl) module

theorem isQuiet (quiet : IsQuiet source.toList) : ∀ l ∈ s.lines, IsQuiet l.source := by
  intro l member
  obtain ⟨names, -, lines⟩ := front.lines
  rw [lines] at member
  rcases mem_head member with ⟨-, rfl⟩ | rfl
  · exact isQuiet_frameworkOf target
  · exact quiet

theorem moved {f : List Char → List Char} (framework : f (frameworkOf target).toList = (frameworkOf target).toList)
    {source' : String} (changed : f source.toList = source'.toList) : IsMergeFront target source' (s.moved f) := by
  obtain ⟨names, listed, lines⟩ := front.lines
  refine ⟨front.opening, names, listed, ?_⟩
  have line : ∀ {names source source' : String}, f source.toList = source'.toList →
      (importLine target names source).moved f = importLine target names source' := by
    intro names source source' changed
    simp only [ImportLine.moved, importLine, changed]
  rw [ScriptFront.moved, lines, headLines, map_head, headLines, head, head, line changed, line framework]

end IsMergeFront

/-! ## Generated scripts -/

/-- Imports of names on lines of their own can be indented. -/
theorem isIndentable_importNames {names source : String} (here : Unbroken names.toList) (there : Unbroken source.toList) :
    IsIndentable (Svelte.importNames names source).toList := by
  refine ⟨by simp [Svelte.importNames], ?_⟩
  simp only [Svelte.importNames, String.toList_append]
  exact ((((show Unbroken _ by decide).append here).append (by decide)).append there).append (by decide)

theorem indented_importNames (names source : String) :
    indented (Svelte.importNames names source).toList = (importLine .svelte names source).row := by
  rw [indented, if_neg (by simp [Svelte.importNames])]
  simp [Svelte.importNames, importLine, ImportLine.row, ImportLine.front, ImportLine.text_clause, delimiterOf,
    indent]

theorem toList_importNames (names source : String) :
    (Vue.importNames names source).toList = (importLine .vue names source).row := by
  simp [Vue.importNames, importLine, ImportLine.row, ImportLine.front, ImportLine.text_clause, delimiterOf]

theorem heads_join {imports : List String} (nonempty : imports ≠ []) (others : List String) :
    Heads (imports.map String.toList) (join "\n" (imports ++ others)).toList := by
  rw [toList_join, List.map_append]
  exact heads_joinChars (by simpa using nonempty) _

/-- Import statements are the first lines of the sections that they come in front of. -/
theorem heads_sections {imports : List String} (nonempty : imports ≠ []) (others sections : List String) :
    Heads (imports.map String.toList) (join "\n\n" (join "\n" (imports ++ others) :: sections)).toList := by
  rw [toList_join, List.map_cons]
  exact (heads_join nonempty others).joinChars _

/-- An opening tag and a script whose first lines are those of a head. -/
theorem exists_mergeFront {target : Target} {opening names source : String} (listed : opening.toList ∈ openings)
    (framework : names ∈ frameworkNames target) {body : String}
    (heads : Heads ((headLines target names source).map ImportLine.row) body.toList) :
    ∃ s back, IsMergeFront target source s ∧ (opening ++ "\n" ++ body ++ "\n</script>").toList = s.text ++ back := by
  obtain ⟨back, shape⟩ := heads
  refine ⟨⟨opening.toList, headLines target names source⟩, back ++ "</script>".toList, ⟨listed, names, framework, rfl⟩, ?_⟩
  have lines : (headLines target names source).flatMap ImportLine.text ++ back = body.toList ++ ['\n'] := by
    rw [shape, List.flatMap_map]
    rfl
  have closing : "\n</script>".toList = ['\n'] ++ "</script>".toList := rfl
  rw [ScriptFront.text, List.append_assoc, ← List.append_assoc _ back, lines]
  simp only [String.toList_append, List.append_assoc, closing]
  rfl

namespace Svelte

theorem exists_head {c : Component} {o : Options} (unbroken : Unbroken o.classMergePath.display.toList) (m : Metadata) :
    ∃ s back, IsMergeFront .svelte o.classMergePath.display s ∧
      (script (declarations c c.props m o true) o.svelte.runes o.typescript).toList = s.text ++ back := by
  generalize kinds : declarations c c.props m o true = ds
  let names := if o.svelte.runes || (ofKind .effect ds).isEmpty then "" else "onMount"
  have listed : names ∈ frameworkNames .svelte ∧ Unbroken names.toList := by
    unfold names
    split <;> decide
  obtain ⟨others, imports⟩ : ∃ others, importsOfKinds (ofKind · ds) o.svelte.runes =
      head importNames (frameworkOf .svelte) names o.classMergePath.display ++ others := by
    rw [importsOfKinds, ← kinds, ofKind_importing, kinds, Svelte.imports, if_pos rfl]
    unfold names
    split <;> exact ⟨_, rfl⟩
  have indentable : ∀ row ∈ (head importNames (frameworkOf .svelte) names o.classMergePath.display).map String.toList,
      IsIndentable row := by
    intro row member
    rw [map_head] at member
    rcases mem_head member with ⟨-, rfl⟩ | rfl
    · exact isIndentable_importNames listed.2 (by decide)
    · exact isIndentable_importNames (by decide) unbroken
  have rows : ((head importNames (frameworkOf .svelte) names o.classMergePath.display).map String.toList).map indented =
      (headLines .svelte names o.classMergePath.display).map ImportLine.row := by
    simp only [map_head, headLines, indented_importNames]
  have opening : (if o.typescript then "<script lang=\"ts\">" else "<script>").toList ∈ openings := by
    split <;> decide
  have sections : importsOfKinds (ofKind · ds) o.svelte.runes ≠ [] := by simp [imports, head_ne_nil]
  rw [script_eq_scriptOfKinds, scriptOfKinds, if_neg sections, imports]
  refine exists_mergeFront opening listed.1 ?_
  rw [← rows]
  exact (heads_sections head_ne_nil others _).indentLines (by simp [head_ne_nil]) indentable

end Svelte

namespace Vue

theorem helpers_listed (c : Component) (m : Metadata) : join ", " (helpers c m) ∈ frameworkNames .vue := by
  rw [helpers]
  cases m.statePattern.isSome <;> cases c.effects.isEmpty <;>
    cases (forwardedRef? c m).isSome || !c.state.isEmpty <;> decide

theorem imports_eq_head (c : Component) (o : Options) (m : Metadata) : ∃ others, imports c o m true =
    head importNames (frameworkOf .vue) (join ", " (helpers c m)) o.classMergePath.display ++ others := by
  rw [imports, Bool.true_or, if_pos rfl, List.append_assoc]
  rcases helpers_start c m with nothing | ⟨long, -⟩
  · rw [nothing]
    exact ⟨_, rfl⟩
  · have named : join ", " (helpers c m) ≠ "" := by
      intro empty
      simp [empty] at long
    rw [head, if_neg named]
    cases shape : helpers c m with
    | nil => simp [shape, join] at named
    | cons first more => exact ⟨_, rfl⟩

theorem exists_head {c : Component} {o : Options} (m : Metadata) :
    ∃ s back, IsMergeFront .vue o.classMergePath.display s ∧
      (script (declarations c c.props m o true) o.typescript).toList = s.text ++ back := by
  obtain ⟨others, imports⟩ := imports_eq_head c o m
  have codes : ((declarations c c.props m o true).filter (·.kind == .importing)).map (·.code) = Vue.imports c o m true := by
    have same := congrArg (List.map (·.code)) (ofKind_importing c c.props m o true)
    rw [List.map_map] at same
    exact same.trans (List.map_id _)
  have rows : (head importNames (frameworkOf .vue) (join ", " (helpers c m)) o.classMergePath.display).map String.toList =
      (headLines .vue (join ", " (helpers c m)) o.classMergePath.display).map ImportLine.row := by
    simp only [map_head, headLines, toList_importNames]
  have opening : (if o.typescript then "<script setup lang=\"ts\">" else "<script setup>").toList ∈ openings := by
    split <;> decide
  have shown : join "\n" (Vue.imports c o m true) ≠ "" := by
    have heads : Heads ((headLines .vue (join ", " (helpers c m)) o.classMergePath.display).map ImportLine.row)
        (join "\n" (Vue.imports c o m true)).toList := by
      rw [imports, ← rows]
      exact heads_join head_ne_nil others
    intro empty
    refine heads.ne_nil (by simp [headLines, head_ne_nil]) (fun row member => ?_) (by rw [empty]; rfl)
    obtain ⟨l, -, rfl⟩ := List.mem_map.mp member
    simp [ImportLine.row]
  rw [script, sections, codes, List.singleton_append, List.filter_cons_of_pos (by simpa using shown), imports]
  refine exists_mergeFront opening (helpers_listed c m) ?_
  rw [← rows]
  exact heads_sections head_ne_nil others _

end Vue

/-- A component that calls the helper in a class imports it on the first lines of its script. -/
theorem exists_generated_mergeFront {c : Component} (sound : Sound c.root) {o : Options}
    (unbroken : Unbroken o.classMergePath.display.toList)
    (calls : ∃ e ∈ carried o.target c (metadataOf c), e.1 = .classBinding ∧
      CallsMerge (spelling o.target c (metadataOf c) e.1 e.2)) :
    ∃ g s back, generate c o = .ok g ∧ Written o g ∧ IsMergeFront o.target o.classMergePath.display s ∧
      g.declarationBlock.toList = s.text ++ back := by
  have nodes := markupOf_sound sound (metadataOf c)
  cases target : o.target with
  | svelte =>
    rw [target, ← Svelte.callsMerge_iff c (metadataOf c) o.svelte.runes] at calls
    obtain ⟨text, rendered, -⟩ := Layout.Svelte.markup_ink ⟨c, metadataOf c, o.svelte.runes⟩ nodes
    obtain ⟨s, back, front, shape⟩ := Svelte.exists_head (c := c) unbroken (metadataOf c)
    rw [generate, target]
    dsimp only
    rw [Svelte.generate, rendered, calls]
    exact ⟨_, s, back, rfl, written_svelte rfl, front, shape⟩
  | vue =>
    rw [target, ← Vue.callsMerge_iff c (metadataOf c)] at calls
    obtain ⟨text, rendered, -⟩ := Layout.Vue.template_ink ⟨c, metadataOf c⟩ nodes
    obtain ⟨s, back, front, shape⟩ := Vue.exists_head (c := c) (o := o) (metadataOf c)
    rw [generate, target]
    dsimp only
    rw [Vue.generate, rendered, calls]
    exact ⟨_, s, back, rfl, written_vue target rfl, front, shape⟩

end Recast.Generate
