import Recast.Analysis.Imports
import Recast.Proofs.Generate.Quoting
import Recast.Proofs.Tsx.WrittenImport

/-!
# Imports read back

An import statement of a source is taken apart into a record, the record is filtered and mapped, and
written out again. Reading what was written gives one statement. Its default and namespace are bound as
before. A listed name is bound to the export of the same name, because the record holds no other: that is
what the source says of it unless the source renames it.
-/

set_option autoImplicit false

namespace Recast.Generate

open Recast.Analysis
open Recast.ClassExpr (isQuote)
open Recast.Literal
open Recast.Text
open Recast.Tsx

/-! ## What a statement binds -/

/-- What a local name stands for: the whole module, or one of its exports by the code units of its name. A
quoted name that is no string has none. -/
inductive Origin where
  | whole
  | exported (name : Option (List Nat))
  deriving DecidableEq

structure ImportEntry where
  localName : String
  origin : Origin
  deriving DecidableEq

def unitsOf (s : String) : List Nat := textUnits s.toList

def defaultEntry (name : String) : ImportEntry := ⟨name, .exported (some (unitsOf "default"))⟩

def wholeEntry (name : String) : ImportEntry := ⟨name, .whole⟩

/-- A name that is bound to the export of the same name. -/
def plainEntry (name : String) : ImportEntry := ⟨name, .exported (some (unitsOf name))⟩

def exportName? (t : Tree) : Option (List Nat) :=
  if t.kind = .stringLiteral then value? t.text.toList else some (unitsOf t.text)

def specifierEntry (s : Tree) : ImportEntry where
  localName :=
    match s.field? .alias with
    | some a => a.text
    | none => s.fieldText .name
  origin := .exported ((s.field? .name).bind exportName?)

/-- The parts of the clauses of a statement. -/
def clauseParts (t : Tree) : List Tree := (t.parts.filter (·.kind = .importClause)).flatMap Tree.parts

/-- What a part of a clause binds that is not a list of names. -/
def headOf (part : Tree) : List ImportEntry :=
  match part.kind with
  | .identifier => [defaultEntry part.text]
  | .namespaceImport => (part.parts.filter (·.kind = .identifier)).map (wholeEntry ·.text)
  | _ => []

def listedOf (part : Tree) : List ImportEntry :=
  match part.kind with
  | .namedImports => (part.parts.filter (·.kind = .importSpecifier)).map specifierEntry
  | _ => []

def headEntries (t : Tree) : List ImportEntry := (clauseParts t).flatMap headOf

def listedEntries (t : Tree) : List ImportEntry := (clauseParts t).flatMap listedOf

/-- The module a statement names, by the code units of its name. -/
def moduleUnits? (t : Tree) : Option (List Nat) := (t.field? .source).bind fun s => value? s.text.toList

/-! ## Statements as records -/

/-- The names of a record are words, and it does not list names besides a namespace. -/
structure Sayable (i : Import) : Prop where
  single : i.namespaceName = none ∨ i.named = []
  words : ∀ w ∈ i.default.toList ++ (i.namespaceName.toList ++ i.named), isWord w.toList = true

/-- A record holds what the parts of a clause bind, the exports of listed names apart. -/
structure Records (parts : List Tree) (i : Import) : Prop extends Sayable i where
  head : parts.flatMap headOf = (i.default.map defaultEntry).toList ++ (i.namespaceName.map wholeEntry).toList
  listed : (parts.flatMap listedOf).map ImportEntry.localName = i.named

section

variable {t : Tree}

theorem parts_clause {c : Tree} (clause : IsClause c) : c.parts = c.children := by
  obtain ⟨-, default, group, children, names, groups⟩ := clause
  refine List.filter_eq_self.mpr fun part member => ?_
  rw [children, List.mem_append, Option.mem_toList, Option.mem_toList] at member
  rcases member with name | grouped
  · simp [(names part name).1]
  · rcases groups part grouped with ⟨kind, -⟩ | ⟨kind, -⟩ <;> simp [kind]

/-- The clauses of a statement are the one in front of the module name, if there is one. -/
theorem clauseParts_eq (parts : ImportParts t.children) :
    clauseParts t = parts.clause.toList.flatMap Tree.children := by
  have clauses : t.parts.filter (·.kind = .importClause) = parts.clause.toList := by
    have front : parts.front.filter (fun c => c.kind = .importClause) = [] :=
      List.filter_eq_nil_iff.mpr fun k member => by simp [(parts.tokens k member).1]
    have clause : parts.clause.toList.filter (fun c => c.kind = .importClause) = parts.clause.toList :=
      List.filter_eq_self.mpr fun c member => by simp [(parts.binds c (by simpa using member)).1.1]
    have after : parts.attributes.filter (fun c => c.kind = .importClause) = [] :=
      List.filter_eq_nil_iff.mpr fun a member => by simp [parts.after a member]
    have kinds : ∀ c : Tree, (decide (c.kind = .importClause) && (c.kind ≠ .comment && c.kind ≠ .token)) =
        decide (c.kind = .importClause) := by
      intro c
      by_cases h : c.kind = .importClause <;> simp [h]
    rw [Tree.parts, List.filter_filter]
    simp only [kinds]
    have whole := congrArg (List.filter fun c => decide (c.kind = .importClause)) parts.whole
    simpa [front, clause, after, parts.quoted] using whole
  rw [clauseParts, clauses]
  cases has : parts.clause with
  | none => rfl
  | some c => simpa using parts_clause (parts.binds c has).1

theorem field?_source (parts : ImportParts t.children) : t.field? .source = some parts.source := by
  have front : parts.front.find? (fun c => c.role = .source) = none :=
    List.find?_eq_none.mpr fun k member => by simp [(parts.tokens k member).2]
  have clause : parts.clause.toList.find? (fun c => c.role = .source) = none :=
    List.find?_eq_none.mpr fun c member => by simp [(parts.binds c (by simpa using member)).2]
  have whole := congrArg (List.find? fun c => decide (c.role = .source)) parts.whole
  rw [Tree.field?, whole, List.find?_append, front, List.find?_append, clause]
  simp [parts.placed]

theorem isWord_specifier {s : Tree} (spec : IsSpecifier s) :
    isWord (specifierEntry s).localName.toList = true := by
  obtain ⟨-, ⟨k, r, text, children⟩, ⟨word, shape⟩ | ⟨⟨k', r', text', children'⟩, word, shape⟩⟩ := spec
  · simpa [specifierEntry, Tree.fieldText, Tree.field?, shape, Tree.withRole, Tree.role, Tree.text] using word.2
  · simpa [specifierEntry, Tree.field?, shape, Tree.withRole, Tree.role, Tree.text] using word.2

theorem specifiers_eq {g : Tree} (specs : ∀ s ∈ g.children, IsSpecifier s) :
    g.parts.filter (·.kind = .importSpecifier) = g.children := by
  rw [Tree.parts, List.filter_filter]
  exact List.filter_eq_self.mpr fun s member => by simp [(specs s member).1]

theorem records_name {d : Tree} (name : IsName d) (base : Import) :
    bindClausePart base d = { base with default := some d.text } ∧ headOf d = [defaultEntry d.text] ∧
      listedOf d = [] := by
  simp [bindClausePart, headOf, listedOf, name.1]

/-- What a group adds to the record of what stands in front of it. -/
theorem records_group {g : Tree} (group : IsGroup g) {front : List Tree} {base : Import}
    (before : Records front base) (fresh : base.namespaceName = none ∧ base.named = []) : Records (front ++ [g]) (bindClausePart base g) := by
  have words := before.words
  rcases group with ⟨kind, name, word, children⟩ | ⟨kind, specs⟩
  · have parts : g.parts = [name] := by simp [Tree.parts, children, word.1]
    have bound : bindClausePart base g = { base with namespaceName := some name.text } := by
      simp [bindClausePart, kind, parts, word.1]
    rw [bound]
    refine ⟨⟨.inr fresh.2, ?_⟩, ?_, ?_⟩
    · intro w member
      simp only [fresh.2, List.append_nil, List.mem_append, Option.mem_toList, Option.some.injEq] at member
      rcases member with default | rfl
      · exact words w (by simp [default])
      · exact word.2
    · simp [before.head, headOf, kind, parts, word.1, fresh.1]
    · simp [before.listed, listedOf, kind]
  · have bound : bindClausePart base g =
        { base with named := g.children.map (ImportEntry.localName ∘ specifierEntry) } := by
      simp only [bindClausePart, kind, specifiers_eq specs, fresh.2, List.nil_append]
      rfl
    rw [bound]
    refine ⟨⟨.inl fresh.1, ?_⟩, ?_, ?_⟩
    · intro w member
      simp only [fresh, List.mem_append, List.mem_map, Option.mem_toList] at member
      rcases member with default | nothing | ⟨s, listed, rfl⟩
      · exact words w (by simp [default])
      · cases nothing
      · exact isWord_specifier (specs s listed)
    · simp [before.head, headOf, kind]
    · simp [before.listed, listedOf, kind, specifiers_eq specs, fresh.2]

theorem source_bindClausePart (info : Import) (part : Tree) : (bindClausePart info part).source = info.source := by
  unfold bindClausePart
  split
  · rfl
  · split <;> rfl
  · rfl
  · rfl

theorem records_clause {default group : Option Tree} (names : ∀ d ∈ default, IsName d)
    (groups : ∀ g ∈ group, IsGroup g) (source : String) (isTypeOnly : Bool) :
    Records (default.toList ++ group.toList)
      ((default.toList ++ group.toList).foldl bindClausePart { source, isTypeOnly }) := by
  have nothing : Records [] { source, isTypeOnly } := ⟨⟨.inl rfl, nofun⟩, rfl, rfl⟩
  have first : ∃ base, default.toList.foldl bindClausePart { source, isTypeOnly } = base ∧
      Records default.toList base ∧ base.namespaceName = none ∧ base.named = [] := by
    cases default with
    | none => exact ⟨_, rfl, nothing, rfl, rfl⟩
    | some d =>
      have name := names d rfl
      obtain ⟨bound, head, listed⟩ := records_name name { source, isTypeOnly }
      refine ⟨_, bound, ⟨⟨.inl rfl, ?_⟩, ?_, ?_⟩, rfl, rfl⟩
      · simpa using name.2
      · simp [head]
      · simp [listed]
  obtain ⟨base, folded, before, fresh⟩ := first
  rw [List.foldl_append, folded]
  cases group with
  | none => simpa using before
  | some g => exact records_group (groups g rfl) before fresh

/-- The record of a statement that names a module holds what the statement binds and the contents of the module
name. -/
theorem records_of_importOf? {i : Import} (imported : IsImported t.children) (read : importOf? t = some i) :
    Records (clauseParts t) i ∧ ∃ s, t.field? .source = some s ∧ s.stringValue? = some i.source := by
  rcases imported with unplaced | named
  · have none : t.field? .source = none := List.find?_eq_none.mpr fun c member => by simp [unplaced c member]
    rw [importOf?, none] at read
    cases read
  · obtain ⟨parts⟩ := named
    have value : ∃ text, parts.source.stringValue? = some text := ⟨_, if_pos (.inl parts.quoted)⟩
    obtain ⟨text, value⟩ := value
    have pieces : ∃ default group : Option Tree, clauseParts t = default.toList ++ group.toList ∧
        (∀ d ∈ default, IsName d) ∧ ∀ g ∈ group, IsGroup g := by
      rw [clauseParts_eq parts]
      cases has : parts.clause with
      | none => exact ⟨none, none, rfl, nofun, nofun⟩
      | some c => simpa using (parts.binds c has).1.2
    obtain ⟨default, group, whole, names, groups⟩ := pieces
    have info := records_clause names groups text (t.children.any fun c => c.kind = .token && c.text == "type")
    rw [importOf?, field?_source parts] at read
    simp only [Option.bind_eq_bind, Option.bind_some, value, Option.pure_def, Option.some.injEq] at read
    rw [← clauseParts, whole] at read
    subst read
    rw [whole]
    refine ⟨⟨⟨info.single, info.words⟩, info.head, info.listed⟩, parts.source, field?_source parts, ?_⟩
    have kept : ∀ (ps : List Tree) (base : Import), (ps.foldl bindClausePart base).source = base.source := by
      intro ps
      induction ps with
      | nil => exact fun base => rfl
      | cons p ps ih => exact fun base => (ih _).trans (source_bindClausePart base p)
    rw [value, kept]

end

/-! ## Records written out -/

def groupOf (i : Import) : Option Group :=
  match i.namespaceName, i.named with
  | some name, _ => some (.whole name)
  | none, [] => none
  | none, first :: more => some (.listed first more)

def clauseOf (i : Import) : Option Clause :=
  match i.default, groupOf i with
  | none, none => none
  | some name, none => some (.default name)
  | none, some g => some (.group g)
  | some name, some g => some (.both name g)

def written (i : Import) (q : Char) : Written := ⟨i.isTypeOnly, clauseOf i, q, i.source⟩

theorem toList_join_names (first : String) (more : List String) :
    (join ", " (first :: more)).toList = first.toList ++ separatedNames more := by
  induction more generalizing first with
  | nil => simp [join, separatedNames]
  | cons next more ih =>
    rw [join]
    · simp [ih, separatedNames]
    · exact List.cons_ne_nil _ _

section

variable {i : Import}

theorem filter_word {name : Option String} (words : ∀ w ∈ name, isWord w.toList = true) :
    name.filter (· ≠ "") = name := by
  cases name with
  | none => rfl
  | some w =>
    have nonempty : w ≠ "" := by
      rintro rfl
      exact absurd (words "" rfl) (by decide)
    simp [nonempty]

theorem importClauses_eq (sayable : Sayable i) : importClauses i = i.default.toList
    ++ (i.namespaceName.map ("* as " ++ ·)).toList
    ++ (if i.named.isEmpty then [] else ["\x7b " ++ join ", " i.named ++ " \x7d"]) := by
  have words := sayable.words
  rw [importClauses, filter_word fun w member => words w (by simp_all),
    filter_word fun w member => words w (by simp_all)]

/-- The clauses of a record, joined, are the clause it is written as. -/
theorem join_importClauses (sayable : Sayable i) :
    match clauseOf i with
    | none => importClauses i = []
    | some c => importClauses i ≠ [] ∧ (join ", " (importClauses i)).toList = c.chars := by
  have single := sayable.single
  rw [importClauses_eq sayable, clauseOf, groupOf]
  cases i.default <;> cases space : i.namespaceName <;> cases names : i.named
  all_goals simp_all [join, Clause.chars, Group.chars, toList_join_names]

theorem toList_renderImport (sayable : Sayable i) (q : Char) :
    (renderImport i (String.singleton q)).toList = (written i q).chars := by
  have joined := join_importClauses sayable
  have source : (written i q).source ++ [';'] = q :: (i.source.toList ++ [q, ';']) := by
    simp [Written.source, written, delimited]
  have whole : (written i q).chars =
      "import".toList ++ ' ' :: ((written i q).front ++ ((written i q).source ++ [';'])) := rfl
  rw [whole, source]
  cases has : clauseOf i with
  | none =>
    rw [has] at joined
    have front : (written i q).front = [] := by simp [Written.front, written, has]
    simp [front, renderImport, joined]
  | some c =>
    rw [has] at joined
    obtain ⟨nonempty, text⟩ := joined
    obtain ⟨x, xs, shape⟩ := List.exists_cons_of_ne_nil nonempty
    have front : (written i q).front =
        (if i.isTypeOnly then "type ".toList else []) ++ (c.chars ++ " from ".toList) := Written.front_some has
    rw [shape] at text
    rw [front, ← text]
    cases kind : i.isTypeOnly <;> simp [renderImport, shape, kind]

theorem clauseParts_node (w : Written) :
    clauseParts w.node = match w.clause with
      | none => []
      | some c => c.node.children := by
  obtain ⟨typeOnly, clause, q, source⟩ := w
  cases clause with
  | none => rfl
  | some c =>
    have parts : c.node.parts = c.node.children := by
      refine List.filter_eq_self.mpr fun part member => ?_
      cases c with
      | default name => simp_all [Clause.node, Tree.children, nameNode, Tree.kind]
      | group g => cases g <;> simp_all [Clause.node, Tree.children, Group.node, Tree.kind]
      | both name g => 
        cases g <;> rcases (by simpa [Clause.node, Tree.children] using member) with rfl | rfl <;> rfl
    have whole : clauseParts (Written.node ⟨typeOnly, some c, q, source⟩) = c.node.parts ++ [] := by
      cases typeOnly <;> rfl
    rw [whole, parts, List.append_nil]

theorem listedOf_node (first : String) (more : List String) :
    listedOf (Group.listed first more).node = (first :: more).map plainEntry := by
  have specs : ((Group.listed first more).node.parts.filter (·.kind = .importSpecifier)) =
      (first :: more).map specifierNode := by
    rw [Tree.parts, List.filter_filter]
    refine List.filter_eq_self.mpr fun s member => ?_
    obtain ⟨w, -, rfl⟩ := List.mem_map.mp member
    rfl
  show List.map specifierEntry _ = _
  rw [specs, List.map_map]
  rfl

/-- The statement a record is written as binds what the record holds. -/
theorem entries_written (sayable : Sayable i) (q : Char) :
    headEntries (written i q).node = (i.default.map defaultEntry).toList ++ (i.namespaceName.map wholeEntry).toList ∧
      listedEntries (written i q).node = i.named.map plainEntry := by
  have single := sayable.single
  rw [headEntries, listedEntries, clauseParts_node]
  show List.flatMap headOf (match clauseOf i with | none => [] | some c => c.node.children) = _ ∧
    List.flatMap listedOf (match clauseOf i with | none => [] | some c => c.node.children) = _
  rw [clauseOf, groupOf]
  have default : ∀ name, headOf (nameNode name) = [defaultEntry name] ∧ listedOf (nameNode name) = [] :=
    fun _ => ⟨rfl, rfl⟩
  have whole : ∀ name, headOf (Group.whole name).node = [wholeEntry name] ∧ listedOf (Group.whole name).node = [] :=
    fun _ => ⟨rfl, rfl⟩
  have listed : ∀ first more, headOf (Group.listed first more).node = [] := fun _ _ => rfl
  cases i.default <;> cases space : i.namespaceName <;> cases names : i.named
  all_goals simp_all [Clause.node, Tree.children, listedOf_node]

theorem field?_node (w : Written) : w.node.field? .source = some w.sourceNode := by
  obtain ⟨typeOnly, clause, q, source⟩ := w
  cases clause with
  | none => rfl
  | some c => cases typeOnly <;> rfl

theorem moduleUnits?_written {q : Char} (quote : isQuote q = true) :
    moduleUnits? (written i q).node = units? q i.source.toList := by
  rw [moduleUnits?, field?_node]
  show value? (String.ofList (delimited q i.source.toList)).toList = _
  rw [String.toList_ofList, value?_delimited quote]

theorem names_clauseOf {c : Clause} (bound : clauseOf i = some c) :
    ∀ w ∈ c.names, w ∈ i.default.toList ++ (i.namespaceName.toList ++ i.named) := by
  obtain ⟨source, named, default, namespaceName, isTypeOnly, category⟩ := i
  cases default <;> cases namespaceName <;> cases named <;> cases bound
  all_goals simp +contextual [Clause.names, Group.names]

theorem isSound_written (sayable : Sayable i) {q : Char} (quoted : q = '"' ∨ q = '\'') {v : List Nat}
    (value : units? q i.source.toList = some v) : (written i q).IsSound :=
  ⟨fun _ has w member => sayable.words w (names_clauseOf has w member), quoted, v, value⟩

end

/-! ## Carried imports -/

/-- The counterpart of the module of an icon import. -/
def carriedPackage? (target : Target) (i : Import) : Option String :=
  if i.category = .icon then Catalog.iconPackageFor? i.source target else none

/-- The module that a carried import names, by the code units of its name, if the source names `v`. -/
def carriedModule (target : Target) (i : Import) (v : List Nat) : List Nat :=
  ((carriedPackage? target i).map unitsOf).getD v

section

variable {target : Target} {i carried : Import}

theorem carriedImport?_eq_some (carries : carriedImport? target i = some carried) :
    carried = { i with
      source := (carriedPackage? target i).getD i.source
      named := i.named.filter (!ownNames.contains ·) } := by
  rw [carriedImport?] at carries
  dsimp only at carries
  split at carries
  · cases carries
  · cases carries
    rw [carriedPackage?]
    split <;> rfl

/-- An import that has a place in the output is left out only if it lists nothing but names that scripts import
themselves. -/
theorem carriedImport?_eq_none (stays : isDropped i.category = false) (sayable : Sayable i)
    (nothing : carriedImport? target i = none) :
    i.default = none ∧ i.namespaceName = none ∧ ∀ w ∈ i.named, w ∈ ownNames := by
  have words := sayable.words
  rw [carriedImport?, filter_word fun w member => words w (by simp_all),
    filter_word fun w member => words w (by simp_all)] at nothing
  dsimp only at nothing
  split at nothing
  · rename_i emptied
    simp only [stays, Bool.false_or, Bool.and_eq_true, Option.isNone_iff_eq_none, List.isEmpty_iff,
      List.filter_eq_nil_iff] at emptied
    refine ⟨emptied.1.2, emptied.2, fun w member => ?_⟩
    simpa using emptied.1.1.2 w member
  · cases nothing

theorem sayable_carried (sayable : Sayable i) (carries : carriedImport? target i = some carried) :
    Sayable carried := by
  rw [carriedImport?_eq_some carries]
  refine ⟨sayable.single.imp_right fun none => by simp [none], fun w member => sayable.words w ?_⟩
  simp only [List.mem_append, List.mem_filter] at member ⊢
  exact member.imp_right (Or.imp_right And.left)

theorem units?_plain {q : Char} (template : q ≠ '`') {cs : List Char} (plain : ∀ c ∈ cs, isPlain q c = true) :
    units? q cs = some (textUnits cs) := by
  induction cs with
  | nil => rw [units?, textUnits, List.flatMap_nil]
  | cons c cs ih =>
    have here : c ≠ q ∧ c ≠ '\\' ∧ c ≠ '\n' ∧ c ≠ '\r' := by
      simpa [isPlain, and_assoc] using plain c (by simp)
    have read : item? q c cs = some (charUnits c, cs) := by
      simp [item?, plain?, template, here]
    rw [units?_of_item? read, ih fun d member => plain d (by simp [member])]
    rfl

/-- The packages that replace others have plain names. -/
theorem isPlain_iconPackageFor? {source package : String}
    (mapped : Catalog.iconPackageFor? source target = some package) :
    ∀ c ∈ package.toList, isPlain (delimiterOf target) c = true := by
  have all : (Catalog.iconPackages.all fun entry => entry.2.svelte.toList.all (isPlain (delimiterOf .svelte)) &&
      entry.2.vue.toList.all (isPlain (delimiterOf .vue))) = true := by decide
  obtain ⟨packages, found, rfl⟩ := Option.map_eq_some_iff.mp mapped
  have here := List.all_eq_true.mp all (source, packages) (Assoc.mem_of_get? found)
  rw [Bool.and_eq_true, List.all_eq_true, List.all_eq_true] at here
  cases target with
  | svelte => exact here.1
  | vue => exact here.2

theorem units?_carried {q : Char} {v : List Nat} (quote : isQuote q = true)
    (value : units? q i.source.toList = some v) (carries : carriedImport? target i = some carried)
    (fits : blocked (delimiterOf target) carried.source.toList = false) :
    units? (delimiterOf target) carried.source.toList = some (carriedModule target i v) := by
  have source : carried.source = (carriedPackage? target i).getD i.source := by rw [carriedImport?_eq_some carries]
  rw [source] at fits ⊢
  rw [carriedModule]
  cases mapped : carriedPackage? target i with
  | none =>
    rw [mapped, Option.getD_none] at fits
    rw [Option.getD_none, units?_delimited quote (isQuote_delimiterOf target) value, fits]
    rfl
  | some package =>
    have replaced : Catalog.iconPackageFor? i.source target = some package := by
      rw [carriedPackage?] at mapped
      split at mapped
      · exact mapped
      · cases mapped
    exact units?_plain (by cases target <;> decide) (isPlain_iconPackageFor? replaced)

theorem stringValue?_units {s : Tree} {contents : String} {v : List Nat} (text : s.stringValue? = some contents)
    (value : value? s.text.toList = some v) : ∃ q, isQuote q = true ∧ units? q contents.toList = some v := by
  have inside : contents = String.ofList (s.text.toList.drop 1).dropLast := by
    rw [Tree.stringValue?] at text
    split at text
    · exact (Option.some.inj text).symm
    · cases text
  obtain ⟨q, quote, -, units⟩ := value?_eq_some value
  exact ⟨q, quote, by rwa [inside, String.toList_ofList]⟩

/-- An import statement of a source that has a place in the output is left out if it binds nothing but names that
scripts import themselves. Otherwise it is written as one statement that is read with the same default and
namespace, and with the listed names that scripts do not import themselves, each bound to the export of that
name: the export that the source binds it to, unless the source renames it. -/
theorem carried_import_bindings {text : String} {root t : Tree} {i : Import} {v : List Nat}
    (parsed : parse? text = some root) (top : t ∈ topLevel root) (kind : t.kind = .importStatement)
    (read : importOf? t = some i) (stays : isDropped i.category = false) (names : moduleUnits? t = some v)
    (target : Target) :
    (carriedImport? target i = none → headEntries t = [] ∧ ∀ e ∈ listedEntries t, e.localName ∈ ownNames) ∧
      ∀ carried, carriedImport? target i = some carried →
        blocked (delimiterOf target) carried.source.toList = false →
        ∃ root' t', parse? (renderImport carried (quoteOf target)) = some root' ∧ topLevel root' = [t'] ∧
          t'.kind = .importStatement ∧ moduleUnits? t' = some (carriedModule target i v) ∧
          headEntries t' = headEntries t ∧
          listedEntries t' =
            (((listedEntries t).map ImportEntry.localName).filter (!ownNames.contains ·)).map plainEntry ∧
          ∀ e ∈ listedEntries t, e.localName ∉ ownNames →
            (e ∈ listedEntries t' ↔ e.origin = .exported (some (unitsOf e.localName))) := by
  obtain ⟨records, s, field, contents⟩ :=
    records_of_importOf? (isImported_of_parse? parsed (List.mem_filter.mp top).1 kind) read
  constructor
  · intro nothing
    obtain ⟨default, space, own⟩ := carriedImport?_eq_none stays records.toSayable nothing
    have head : headEntries t = [] := records.head.trans (by simp [default, space])
    exact ⟨head, fun e member => own _ (records.listed ▸ List.mem_map_of_mem member)⟩
  · intro carried carries fits
    have value : value? s.text.toList = some v := by simpa [moduleUnits?, field] using names
    obtain ⟨q, quote, units⟩ := stringValue?_units contents value
    have module := units?_carried quote units carries fits
    have sayable := sayable_carried records.toSayable carries
    have quoted : delimiterOf target = '"' ∨ delimiterOf target = '\'' := by cases target <;> simp [delimiterOf]
    have back := parse?_written (isSound_written sayable quoted module)
    rw [← toList_renderImport sayable, ← quoteOf_eq, String.ofList_toList] at back
    obtain ⟨head, listed⟩ := entries_written sayable (delimiterOf target)
    have kept := carriedImport?_eq_some carries
    have names : carried.named = ((listedEntries t).map ImportEntry.localName).filter (!ownNames.contains ·) := by
      rw [kept]
      exact congrArg _ records.listed.symm
    rw [names] at listed
    refine ⟨_, _, back, rfl, rfl, ?_, ?_, listed, fun e member other => ?_⟩
    · rw [moduleUnits?_written (isQuote_delimiterOf target), module]
    · rw [head, kept]
      exact records.head.symm
    · rw [listed, List.mem_map]
      constructor
      · rintro ⟨name, -, rfl⟩
        rfl
      · intro plain
        refine ⟨e.localName, List.mem_filter.mpr ⟨List.mem_map_of_mem member, by simpa using other⟩, ?_⟩
        rw [plainEntry, ← plain]

end

/-! ## A renamed import -/

def datesSource : String := "import dates, \x7b format as formatDate, parse \x7d from \"date-fns\""

def formatEntry : ImportEntry := ⟨"formatDate", .exported (some (unitsOf "format"))⟩

theorem read_dates : ∃ root t i carried, parse? datesSource = some root ∧ t ∈ topLevel root ∧
    t.kind = .importStatement ∧ importOf? t = some i ∧ isDropped i.category = false ∧
    (t.field? .source).map Tree.text = some "\"date-fns\"" ∧ headEntries t = [defaultEntry "dates"] ∧
    listedEntries t = [formatEntry, plainEntry "parse"] ∧ carriedImport? .vue i = some carried ∧
    carried.source = "date-fns" ∧ carriedPackage? .vue i = none := by
  have checked : ((parse? datesSource).any fun root => (topLevel root).any fun t => t.kind = .importStatement ∧
      (importOf? t).any fun i => isDropped i.category = false ∧
        (t.field? .source).map Tree.text = some "\"date-fns\"" ∧ headEntries t = [defaultEntry "dates"] ∧
        listedEntries t = [formatEntry, plainEntry "parse"] ∧
        (carriedImport? .vue i).any fun carried =>
          carried.source = "date-fns" ∧ carriedPackage? .vue i = none) = true := by
    have chars : datesSource = String.ofList _ := rfl
    rw [chars, Tsx.parse?_ofList]
    decide +kernel
  obtain ⟨root, parsed, checked⟩ := (Option.any_eq_true _ _).mp checked
  obtain ⟨t, top, checked⟩ := List.any_eq_true.mp checked
  obtain ⟨kind, checked⟩ := of_decide_eq_true checked
  obtain ⟨i, read, checked⟩ := (Option.any_eq_true _ _).mp checked
  obtain ⟨stays, source, head, listed, checked⟩ := of_decide_eq_true checked
  obtain ⟨carried, carries, checked⟩ := (Option.any_eq_true _ _).mp checked
  obtain ⟨same, unmapped⟩ := of_decide_eq_true checked
  exact ⟨root, t, i, carried, parsed, top, kind, read, stays, source, head, listed, carries, same, unmapped⟩

theorem moduleUnits?_dates {t : Tree} (source : (t.field? .source).map Tree.text = some "\"date-fns\"") :
    moduleUnits? t = some (unitsOf "date-fns") := by
  obtain ⟨s, field, text⟩ := Option.map_eq_some_iff.mp source
  have quoted : "\"date-fns\"".toList = delimited '"' "date-fns".toList := by decide
  rw [moduleUnits?, field, Option.bind_some, text, quoted, value?_delimited rfl]
  have plain : "date-fns".toList.all (isPlain '"') = true := by decide
  exact units?_plain (by decide) (List.all_eq_true.mp plain)

theorem carried_import_bindings_renamed : ∃ root t i carried root' t', parse? datesSource = some root ∧
    t ∈ topLevel root ∧ importOf? t = some i ∧ carriedImport? .vue i = some carried ∧
    parse? (renderImport carried (quoteOf .vue)) = some root' ∧ topLevel root' = [t'] ∧
    moduleUnits? t' = some (unitsOf "date-fns") ∧ headEntries t' = [defaultEntry "dates"] ∧
    formatEntry ∈ listedEntries t ∧ formatEntry ∉ listedEntries t' ∧ plainEntry "formatDate" ∈ listedEntries t' ∧
    plainEntry "parse" ∈ listedEntries t' := by
  obtain ⟨root, t, i, carried, parsed, top, kind, read, stays, source, head, listed, carries, same, unmapped⟩ :=
    read_dates
  have fits : blocked (delimiterOf .vue) carried.source.toList = false := by
    rw [same]
    decide
  obtain ⟨root', t', back, single, -, module, head', listed', bound⟩ :=
    (carried_import_bindings parsed top kind read stays (moduleUnits?_dates source) .vue).2 carried carries fits
  have renamed : formatEntry ∈ listedEntries t := by simp [listed]
  have plain : plainEntry "parse" ∈ listedEntries t := by simp [listed]
  refine ⟨root, t, i, carried, root', t', parsed, top, read, carries, back, single, ?_, head'.trans head, renamed,
    ?_, ?_, ?_⟩
  · rw [module, carriedModule, unmapped]
    rfl
  · exact fun still => absurd ((bound _ renamed (by decide)).mp still) (by decide)
  · rw [listed', listed]
    decide
  · exact (bound _ plain (by decide)).mpr rfl

end Recast.Generate
