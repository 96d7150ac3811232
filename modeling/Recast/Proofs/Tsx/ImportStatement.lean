import Recast.Proofs.Tsx.StringLiteral
import Recast.Tsx.Parse

/-!
# Import statements

What an import statement of a parsed source consists of: a module name, in front of it at most one
clause, which binds a default, the whole module, listed names, or a default and one of the others, all
of them words. In the form that names no module no child plays a part, because expressions never do.
-/

set_option autoImplicit false

namespace Recast.Tsx

open Recast.Literal
open Recast.Text

/-! ## Expressions play no part of their own -/

/-- Whatever is read plays no part yet. -/
abbrev Unplaced (p : Reader Tree) : Prop := Delivers (fun t => t.role = .none) p

theorem unplaced_close (start : Cursor) (k : Kind) (ts : List Tree) : Unplaced (close start k ts) :=
  (delivers_close start k ts).mono fun _ made => made.2.1

theorem unplaced_node (k : Kind) (children : Reader (List Tree)) : Unplaced (node k children) :=
  (delivers_node k children).mono fun _ made => made.2

theorem delivers_functionNode (rules : Rules) (k : Kind) (named : Bool) :
    Delivers (fun t => (t.kind = k ∨ t.kind = .other) ∧ t.role = .none) (functionNode rules k named) := by
  refine .last fun start => .last fun _ => .last fun _ => .last fun generator => ?_
  have closed : ∀ name, Delivers (fun t => (t.kind = k ∨ t.kind = .other) ∧ t.role = .none)
      (functionRest rules name >>= close start (if generator.isEmpty then k else .other)) := by
    refine fun name => .last fun ts => (delivers_close start _ ts).mono fun t made => ⟨?_, made.2.1⟩
    rw [made.1]
    split <;> simp
  cases named with
  | false => exact .last closed
  | true => exact .last closed

theorem unplaced_functionNode (rules : Rules) (k : Kind) (named : Bool) : Unplaced (functionNode rules k named) :=
  (delivers_functionNode rules k named).mono fun _ made => made.2

theorem unplaced_element (n : Nat) : Unplaced (rulesUpTo n .element) := by
  cases n with
  | zero => exact .failure
  | succ n =>
    refine .last fun _ => .last fun _ => .last fun _ => .orElse ?_ ?_
    · exact .last fun _ => .last fun _ => unplaced_close _ _ _
    · exact .last fun _ => .last fun _ => .last fun _ => .last fun _ => unplaced_close _ _ _

theorem unplaced_wordOperand (rules : Rules) : Unplaced (wordOperand rules) := by
  refine .last fun w => ?_
  split
  · exact unplaced_functionNode _ _ _
  · exact .orElse (unplaced_functionNode _ _ _) (unplaced_node _ _)
  · exact unplaced_node _ _
  · exact .failure
  · exact unplaced_node _ _
  · split <;> exact unplaced_node _ _

theorem unplaced_primaryUpTo {rules : Rules} (element : Unplaced (rules .element)) (n : Nat) :
    Unplaced (primaryUpTo rules n) := by
  cases n with
  | zero => exact .failure
  | succ n =>
    refine .last fun cs => ?_
    split
    · exact unplaced_node _ _
    · exact unplaced_node _ _
    · exact unplaced_node _ _
    · exact .last fun _ => unplaced_node _ _
    · exact .last fun _ => unplaced_node _ _
    · exact .last fun _ => unplaced_node _ _
    · exact .last fun _ => unplaced_node _ _
    · exact .orElse element (unplaced_node _ _)
    · exact unplaced_node _ _
    · exact unplaced_node _ _
    · split
      · exact .last fun _ => unplaced_node _ _
      · exact .orElse (unplaced_node _ _) (unplaced_wordOperand rules)
    · exact .failure

theorem unplaced_operandStep (rules : Rules) (start : Cursor) (t : Tree) :
    Unplaced (operandStep rules start t) := by
  refine .last fun cs => ?_
  split
  · exact .last fun _ => .last fun _ => unplaced_close _ _ _
  · refine .last fun _ => .last fun _ => ?_
    split
    · exact .last fun _ => unplaced_close _ _ _
    · exact .last fun _ => .last fun _ => unplaced_close _ _ _
    · exact .last fun _ => .last fun _ => .last fun _ => unplaced_close _ _ _
    · exact .last fun _ => unplaced_close _ _ _
  · exact .last fun _ => .last fun _ => .last fun _ => unplaced_close _ _ _
  · exact .last fun _ => unplaced_close _ _ _
  · exact .last fun _ => .last fun _ => unplaced_close _ _ _
  · exact .last fun _ => .last fun _ => .last fun _ => unplaced_close _ _ _
  · refine .orElse ?_ (.last fun _ => unplaced_close _ _ _)
    exact .last fun _ => .last fun _ => .last fun _ => unplaced_close _ _ _
  · exact .failure

theorem unplaced_operand {rules : Rules} (element : Unplaced (rules .element)) : Unplaced (operand rules) := by
  refine .last fun start => .last fun c => .bind (unplaced_primaryUpTo element _) fun first none => ?_
  refine .bind (.extend (fun t _ => unplaced_operandStep rules start t) none) fun t none => ?_
  refine .orElse ?_ (.pure none)
  exact .last fun _ => .last fun _ => .last fun _ => unplaced_close _ _ _

theorem unplaced_operation {rules : Rules} (element : Unplaced (rules .element)) (level : Nat)
    (ctx : ExprContext) : Unplaced (operation rules level ctx) := by
  have unary : Unplaced (unaryExpression rules) :=
    .orElse (unplaced_node _ _) <| .orElse (unplaced_node _ _) <| .orElse (unplaced_node _ _) <|
      unplaced_operand element
  refine .last fun start => .bind unary fun first none => .extend (fun t _ => .orElse ?_ ?_) none
  · exact .last fun _ => .last fun _ => .last fun _ => .last fun _ => .last fun _ => unplaced_close _ _ _
  · exact .last fun _ => .last fun _ => unplaced_close _ _ _

theorem unplaced_single (n : Nat) (ctx : ExprContext) : Unplaced (rulesUpTo n (.single ctx)) := by
  cases n with
  | zero => exact .failure
  | succ n =>
    have conditional : Unplaced (conditional (rulesUpTo n) ctx) := by
      refine .last fun start => .bind (unplaced_operation (unplaced_element n) 1 ctx) fun condition none => ?_
      refine .orElse ?_ (.orElse ?_ (.pure none))
      · exact .last fun _ => .last fun _ => .last fun _ => .last fun _ => unplaced_close _ _ _
      · exact .last fun _ => .last fun _ => .last fun _ => .last fun _ => unplaced_close _ _ _
    refine .orElse (unplaced_node _ _) (.orElse (unplaced_node _ _) (.last fun start => .bind conditional ?_))
    intro left none
    exact .orElse (.last fun _ => .last fun _ => unplaced_close _ _ _) (.pure none)

theorem unplaced_expression (n : Nat) (ctx : ExprContext) : Unplaced (rulesUpTo n (.expression ctx)) := by
  cases n with
  | zero => exact .failure
  | succ n =>
    refine .last fun start => .bind (unplaced_single n ctx) fun first none => .last fun more => ?_
    split
    · exact .pure none
    · exact unplaced_close _ _ _

/-! ## The parts of an import statement -/

/-- The parts of a listed name: alone, or with the name it is bound to. -/
def ListsName (ts : List Tree) : Prop :=
  ∃ name : Tree, (IsName name ∧ ts = [name.withRole .name]) ∨
    ∃ bound, IsName bound ∧ ts = [name.withRole .name, bound.withRole .alias]

def IsSpecifier (t : Tree) : Prop := t.kind = .importSpecifier ∧ ListsName t.children

/-- The whole module under a name, or listed names. -/
def IsGroup (t : Tree) : Prop :=
  (t.kind = .namespaceImport ∧ ∃ name, IsName name ∧ t.children = [name]) ∨
    (t.kind = .namedImports ∧ ∀ s ∈ t.children, IsSpecifier s)

/-- A default, a group, or a default and a group. -/
def IsClause (t : Tree) : Prop :=
  t.kind = .importClause ∧ ∃ default group : Option Tree, t.children = default.toList ++ group.toList ∧
    (∀ name ∈ default, IsName name) ∧ ∀ g ∈ group, IsGroup g

/-- The children of a statement that names a module. -/
structure ImportParts (children : List Tree) where
  front : List Tree
  clause : Option Tree
  source : Tree
  attributes : List Tree
  whole : children = front ++ (clause.toList ++ source :: attributes)
  tokens : ∀ k ∈ front, k.kind = .token ∧ k.role = .none
  binds : ∀ c ∈ clause, IsClause c ∧ c.role = .none
  quoted : source.kind = .stringLiteral
  placed : source.role = .source
  after : ∀ a ∈ attributes, a.kind = .objectLiteral

/-- Either nothing plays a part, the module name included, or the children are those of a statement that
names a module. -/
def IsImported (ts : List Tree) : Prop := (∀ c ∈ ts, c.role = .none) ∨ Nonempty (ImportParts ts)

theorem IsImported.append {ts attributes : List Tree} (content : IsImported ts)
    (after : ∀ a ∈ attributes, a.kind = .objectLiteral ∧ a.role = .none) : IsImported (ts ++ attributes) := by
  rcases content with unplaced | named
  · refine .inl fun c member => ?_
    rcases List.mem_append.mp member with inside | behind
    · exact unplaced c inside
    · exact (after c behind).2
  · obtain ⟨parts⟩ := named
    refine .inr ⟨parts.front, parts.clause, parts.source, parts.attributes ++ attributes, ?_, parts.tokens,
      parts.binds, parts.quoted, parts.placed, ?_⟩
    · have whole := congrArg (· ++ attributes) parts.whole
      simpa using whole
    · intro a member
      rcases List.mem_append.mp member with inside | behind
      · exact parts.after a inside
      · exact (after a behind).1

theorem delivers_importSpecifier : Delivers IsSpecifier importSpecifier := by
  have renamed : Delivers ListsName (importItem renamedImport) := by
    refine .bind (.last fun name => .last fun _ => .bind delivers_bindingName fun bound word => .pure ?_)
      fun ts holds => .last fun _ => .pure holds
    exact ⟨name, .inr ⟨bound, word.1, rfl⟩⟩
  have plain : Delivers ListsName (importItem plainImport) := by
    refine .bind (.bind delivers_bindingName fun name word => .pure ?_) fun ts holds => .last fun _ => .pure holds
    exact ⟨name, .inl ⟨word.1, rfl⟩⟩
  refine (Delivers.node (P := ListsName) ?_).mono fun t made => ⟨made.1, made.2.2⟩
  exact .orElse renamed (.orElse plain (.last fun _ => .orElse renamed plain))

theorem delivers_commaList {α : Type} {P : α → Prop} {p : Reader α} (all : Delivers P p) :
    Delivers (fun as => ∀ a ∈ as, P a) (commaList p) := by
  refine .bind all.optional fun first here => ?_
  obtain ⟨a, rfl, holds⟩ := here
  cases a with
  | none => exact .pure nofun
  | some a =>
    refine .bind (.many (.last fun _ => all)) fun more there => .last fun _ => .pure ?_
    exact List.forall_mem_cons.mpr ⟨holds a rfl, there⟩

theorem delivers_importGroup : Delivers IsGroup importGroup := by
  refine .orElse ?_ ?_
  · refine (Delivers.node (P := fun ts => ∃ name, IsName name ∧ ts = [name]) ?_).mono
      fun t made => .inl ⟨made.1, made.2.2⟩
    exact .last fun _ => .last fun _ => .bind delivers_bindingName fun name word => .pure ⟨name, word.1, rfl⟩
  · refine (Delivers.node (P := fun ts => ∀ s ∈ ts, IsSpecifier s) ?_).mono
      fun t made => .inr ⟨made.1, made.2.2⟩
    exact .last fun _ => .bind (delivers_commaList delivers_importSpecifier) fun specs all =>
      .last fun _ => .pure all

theorem delivers_importClause : Delivers (fun t => IsClause t ∧ t.role = .none) importClause := by
  refine (Delivers.node (P := fun ts => ∃ default group : Option Tree, ts = default.toList ++ group.toList ∧
    (∀ name ∈ default, IsName name) ∧ ∀ g ∈ group, IsGroup g) ?_).mono
      fun t made => ⟨⟨made.1, made.2.2⟩, made.2.1⟩
  refine .orElse ?_ ?_
  · exact .bind delivers_importGroup fun g holds => .pure ⟨none, some g, rfl, nofun, by simpa using holds⟩
  · refine .bind delivers_bindingName fun name word => ?_
    refine .bind (.optional (.last fun _ => delivers_importGroup)) fun more all => .pure ?_
    obtain ⟨g, rfl, holds⟩ := all
    exact ⟨some name, g, rfl, by simpa using word.1, holds⟩

theorem delivers_moduleSource :
    Delivers (fun t => t.kind = .stringLiteral ∧ t.role = .source) moduleSource := by
  refine .last fun _ => .bind (delivers_node _ _) fun t made => .pure ⟨?_, ?_⟩
  · cases t
    exact made.1
  · cases t
    rfl

theorem delivers_importFrom : Delivers (fun ts => ∃ c s, ts = [c, s] ∧ (IsClause c ∧ c.role = .none) ∧
    s.kind = .stringLiteral ∧ s.role = .source) importFrom :=
  .bind delivers_importClause fun c binds => .last fun _ => .bind delivers_moduleSource fun s made =>
    .pure ⟨c, s, rfl, binds, made⟩

theorem delivers_importContent (n : Nat) : Delivers IsImported (importContent (rulesUpTo n)) := by
  have kind : Delivers (fun t => t.kind = .token ∧ t.role = .none) importKind := delivers_node _ _
  refine .orElse ?_ (.orElse (delivers_importFrom.mono ?_) (.orElse (.bind kind fun k token => ?_) ?_))
  · exact .bind delivers_moduleSource fun s made =>
      .pure (.inr ⟨[], none, s, [], rfl, nofun, nofun, made.1, made.2, nofun⟩)
  · rintro ts ⟨c, s, rfl, binds, made⟩
    exact .inr ⟨[], some c, s, [], rfl, nofun, by simpa using binds, made.1, made.2, nofun⟩
  · refine .bind delivers_importFrom fun ts parts => .pure ?_
    obtain ⟨c, s, rfl, binds, made⟩ := parts
    exact .inr ⟨[k], some c, s, [], rfl, by simpa using token, by simpa using binds, made.1, made.2, nofun⟩
  · refine .last fun _ => .bind delivers_bindingName fun name word => .last fun _ => ?_
    refine .bind (unplaced_expression n {}) fun e none => .pure (.inl ?_)
    simp [word.2.1, none]

theorem delivers_importStatement (n : Nat) :
    Delivers (fun t => IsImported t.children) (importStatement (rulesUpTo n)) := by
  have attributes : Delivers (fun a => a.kind = .objectLiteral ∧ a.role = .none)
      (importAttributes (rulesUpTo n)) := .last fun _ => delivers_node _ _
  refine (Delivers.node (P := IsImported) ?_).mono fun t made => made.2.2
  refine .last fun _ => .bind (delivers_importContent n) fun ts content => ?_
  refine .bind attributes.optional fun as after => .last fun _ => .pure ?_
  obtain ⟨a, rfl, object⟩ := after
  exact content.append (by simpa using object)

/-! ## Statements of a source -/

/-- An import statement has the parts of one. -/
def IsStatement (t : Tree) : Prop := t.kind = .importStatement → IsImported t.children

theorem isStatement_node {k : Kind} (other : k ≠ .importStatement) (children : Reader (List Tree)) :
    Delivers IsStatement (node k children) :=
  (delivers_node k children).mono fun _ made same => absurd (made.1.symm.trans same) other

theorem isStatement_functionNode (rules : Rules) (named : Bool) :
    Delivers IsStatement (functionNode rules .functionDeclaration named) := by
  refine (delivers_functionNode rules _ named).mono fun t made same => ?_
  rw [same] at made
  simp at made

theorem isStatement_variableStatement (rules : Rules) : Delivers IsStatement (variableStatement rules) := by
  have declared : Delivers (fun made => made.1 ≠ Kind.importStatement) (variableList rules {}) := by
    refine .last fun w => .last fun _ => .last fun _ => .pure ?_
    dsimp only
    split <;> decide
  refine .last fun start => .bind declared fun made other => .last fun _ => ?_
  exact (delivers_close start _ _).mono fun _ closed same => absurd (closed.1.symm.trans same) other

theorem isStatement_declaration (rules : Rules) : Delivers IsStatement (declaration rules) :=
  .orElse (isStatement_functionNode _ _) <| .orElse (isStatement_node (by decide) _) <|
    .orElse (isStatement_node (by decide) _) <| .orElse (isStatement_node (by decide) _) <|
    .orElse (isStatement_variableStatement _) <| .orElse (isStatement_node (by decide) _) <|
    .orElse (isStatement_node (by decide) _) <| .orElse (isStatement_node (by decide) _) <|
    isStatement_node (by decide) _

theorem isStatement_controlStatement (rules : Rules) (w : String) :
    Delivers IsStatement (controlStatement rules w) := by
  unfold controlStatement
  split
  iterate 12 exact isStatement_node (by decide) _
  exact .failure

theorem isStatement_statement (n : Nat) : Delivers IsStatement (rulesUpTo n .statement) := by
  cases n with
  | zero => exact .failure
  | succ n =>
    have block : Delivers IsStatement (rulesUpTo n .block) := by
      cases n with
      | zero => exact .failure
      | succ n => exact isStatement_node (by decide) _
    have expression : Delivers IsStatement (expressionStatement (rulesUpTo n)) := isStatement_node (by decide) _
    have exported : Delivers IsStatement (exportStatement (rulesUpTo n)) := isStatement_node (by decide) _
    have worded : Delivers IsStatement (wordStatement (rulesUpTo n)) := by
      refine .last fun w => .orElse (isStatement_controlStatement _ w) ?_
      split
      · exact .orElse ((delivers_importStatement n).mono fun _ parts _ => parts) expression
      · exact exported
      iterate 4 exact isStatement_declaration _
      iterate 10 exact .orElse (isStatement_declaration _) expression
      exact .orElse (isStatement_node (by decide) _) expression
    refine .last fun cs => ?_
    split
    · exact .failure
    · exact block
    · exact isStatement_node (by decide) _
    · exact .orElse exported (isStatement_node (by decide) _)
    · split
      · exact worded
      · exact expression

/-- Every import statement of a source has the parts of one. -/
theorem isImported_of_parse? {source : String} {root t : Tree} (parsed : parse? source = some root)
    (member : t ∈ root.children) (kind : t.kind = .importStatement) : IsImported t.children := by
  have statements : ∀ n, Delivers (fun root : Tree => ∀ t ∈ root.children, IsStatement t)
      (program (rulesUpTo n)) := by
    refine fun n => (Delivers.node (P := fun ts => ∀ t ∈ ts, IsStatement t) ?_).mono fun _ made => made.2.2
    have listed : Delivers (fun ts => ∀ t ∈ ts, IsStatement t) (statementList (rulesUpTo n)) :=
      .last fun _ => .many (.bind (isStatement_statement n) fun t holds => .last fun _ => .pure holds)
    exact .last fun _ => .bind listed fun ts all => .last fun _ => .last fun _ => .last fun _ => .pure all
  obtain ⟨⟨root', rest⟩, read, rfl⟩ := Option.map_eq_some_iff.mp parsed
  exact statements _ read t member kind

end Recast.Tsx
