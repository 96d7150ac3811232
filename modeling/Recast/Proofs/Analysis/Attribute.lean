import Recast.Proofs.Analysis.Markup

/-!
# Attributes of the elements that are made

What an attribute of the source says, and the elements that are made of a tree: each of them has the
attributes of a tag in that tree, as the tag says them.
-/

set_option autoImplicit false

namespace Recast.Tsx.Tree

theorem mem_walk_self (t : Tree) : t ∈ t.walk := by
  cases t
  simp [walk]

theorem mem_walkList {t : Tree} {ts : List Tree} (member : t ∈ ts) : t ∈ walkList ts := by
  induction ts with
  | nil => cases member
  | cons u ts ih =>
    rw [walkList, List.mem_append]
    rcases List.mem_cons.mp member with rfl | later
    · exact .inl (mem_walk_self t)
    · exact .inr (ih later)

mutual
theorem walk_trans : ∀ (t u x : Tree), u ∈ t.walk → x ∈ u.walk → x ∈ t.walk
  | mk k r s cs, u, x, inside, below => by
    rw [walk, List.mem_cons] at inside ⊢
    rcases inside with rfl | later
    · rwa [walk, List.mem_cons] at below
    · exact .inr (walkList_trans cs u x later below)
theorem walkList_trans : ∀ (ts : List Tree) (u x : Tree), u ∈ walkList ts → x ∈ u.walk → x ∈ walkList ts
  | [], _, _, inside, _ => by cases inside
  | t :: ts, u, x, inside, below => by
    rw [walkList, List.mem_append] at inside ⊢
    exact inside.imp (fun here => walk_trans t u x here below) fun later => walkList_trans ts u x later below
end

theorem mem_walk_of_mem_children {c t : Tree} (member : c ∈ t.children) : c ∈ t.walk := by
  cases t with
  | mk k r s cs =>
    rw [walk]
    exact List.mem_cons_of_mem _ (mem_walkList member)

theorem mem_walk_of_mem_parts {c t : Tree} (member : c ∈ t.parts) : c ∈ t.walk :=
  mem_walk_of_mem_children (List.mem_filter.mp member).1

theorem mem_walk_of_field? {c t : Tree} {r : Role} (found : t.field? r = some c) : c ∈ t.walk :=
  mem_walk_of_mem_children (List.mem_of_find?_eq_some found)

theorem mem_walk_of_unwrap {t u : Tree} (inside : t.unwrap = some u) : u ∈ t.walk := by
  fun_induction unwrap t with
  | case1 t isParenthesized empty => cases inside
  | case2 t isParenthesized c rest parts ih =>
    exact walk_trans t c u (mem_walk_of_mem_parts (by simp [parts])) (ih inside)
  | case3 t isOpen =>
    cases inside
    exact mem_walk_self u

end Recast.Tsx.Tree

namespace Recast.Markup

variable {P : Node → Prop}

/-- A property of every node of a forest. -/
def Everywhere (P : Node → Prop) (nodes : List Node) : Prop := ∀ n ∈ Node.preorderList nodes, P n

theorem everywhere_nil : Everywhere P [] := fun _ member => (nomatch member)

theorem everywhere_append {ns ms : List Node} (front : Everywhere P ns) (back : Everywhere P ms) :
    Everywhere P (ns ++ ms) := by
  rw [Everywhere, Node.preorderList_append, List.forall_mem_append]
  exact ⟨front, back⟩

theorem everywhere_flatten {groups : List (List Node)} (each : ∀ ns ∈ groups, Everywhere P ns) :
    Everywhere P groups.flatten := by
  induction groups with
  | nil => exact everywhere_nil
  | cons ns groups ih =>
    rw [List.flatten_cons]
    exact everywhere_append (each ns (by simp)) (ih fun ms member => each ms (by simp [member]))

/-- The node itself, and what lies below it. -/
theorem everywhere_singleton {n : Node} : Everywhere P [n] ↔ P n ∧ Everywhere P n.children := by
  cases n <;> simp [Everywhere, Node.preorderList, Node.preorder, Node.children]

theorem everywhere_leaf {n : Node} (here : P n) (childless : n.children = []) : Everywhere P [n] :=
  everywhere_singleton.mpr ⟨here, childless ▸ everywhere_nil⟩

end Recast.Markup

namespace Recast.Analysis

open Recast.Tsx Recast.Markup

/-! ## What an attribute says -/

/-- What the source gives an attribute. -/
inductive Said where
  /-- Nothing but its name. -/
  | flag
  /-- A quoted text of the tag. -/
  | markup (text : String)
  /-- A string literal of the script. -/
  | script (literal : String)
  | code (text : String)
  deriving DecidableEq, Repr

def Said.isStatic : Said → Bool
  | code _ => false
  | _ => true

/-- The text between the first and the last character. -/
def inside (text : String) : List Char := (text.toList.drop 1).dropLast

/-- The name of an attribute and what it is given. Children are no attribute, and neither is an empty
expression. -/
def said? (t : Tree) : Option (String × Said) :=
  match t.parts with
  | [] => none
  | name :: rest =>
    if name.text = "children" then none
    else match rest.head? with
      | none => some (name.text, .flag)
      | some value =>
        match value.kind with
        | .stringLiteral => some (name.text, .markup value.text)
        | .container => value.parts.head?.map fun e =>
          (name.text, if e.kind = .stringLiteral then .script e.text else .code e.text)
        | _ => some (name.text, .code value.text)

/-- The text that an attribute is kept as. -/
def Said.kept : Said → String
  | flag => "true"
  | markup text => String.ofList (inside text)
  | script literal => String.ofList (inside literal)
  | code text => text

/-- An attribute is kept as what it says. -/
def addSaid (head : Head) : String × Said → Head
  | (name, .code text) => addDynamic head name (attributeKey name) text
  | (name, said) => addStatic head (attributeKey name) said.kept

theorem addAttribute_eq (head : Head) (t : Tree) :
    addAttribute head t = ((said? t).map (addSaid head)).getD head := by
  rw [addAttribute, said?]
  cases t.parts with
  | nil => rfl
  | cons name rest =>
    by_cases children : name.text = "children"
    · simp [children]
    · simp only [beq_iff_eq, children, if_false]
      cases rest.head? with
      | none => rfl
      | some value =>
        dsimp only
        cases kind : value.kind
        all_goals try rfl
        · simp [Tree.stringValue?, kind, addSaid, Said.kept, inside]
        · cases value.parts.head? with
          | none => rfl
          | some e =>
            by_cases string : e.kind = .stringLiteral
            · simp [string, Tree.stringValue?, addSaid, Said.kept, inside]
            · simp [string, addSaid]

/-- The attributes of a head are those of a tag. -/
structure ReadFrom (tag : Tree) (h : Head) : Prop where
  attributes : ∀ entry ∈ h.attributes, ∃ t ∈ tag.parts, t.kind = .attribute ∧
    ∃ name said, said? t = some (name, said) ∧ said.isStatic = true ∧
      entry = (attributeKey name, said.kept)
  bindings : ∀ entry ∈ h.bindings, (entry.1 = spreadKey ∧ entry.2.kind = .spread) ∨
    ∃ t ∈ tag.parts, t.kind = .attribute ∧ ∃ name, said? t = some (name, .code entry.2.code)

theorem readFrom_bare (tag : Tree) {h : Head} (bare : h.attributes = [] ∧ h.bindings = []) : ReadFrom tag h := by
  constructor
  · rw [bare.1]
    exact fun _ member => (nomatch member)
  · rw [bare.2]
    exact fun _ member => (nomatch member)

theorem readFrom_addSaid {tag t : Tree} (part : t ∈ tag.parts) (kind : t.kind = .attribute) {name : String}
    {said : Said} (given : said? t = some (name, said)) {h : Head} (read : ReadFrom tag h) :
    ReadFrom tag (addSaid h (name, said)) := by
  have static (fixed : said.isStatic = true) : ReadFrom tag (addStatic h (attributeKey name) said.kept) := by
    refine ⟨fun entry member => ?_, read.bindings⟩
    rcases Assoc.mem_put member with rfl | old
    · exact ⟨t, part, kind, name, said, given, fixed, rfl⟩
    · exact read.attributes entry old
  cases said with
  | flag => exact static rfl
  | markup text => exact static rfl
  | script literal => exact static rfl
  | code text =>
    refine ⟨read.attributes, fun entry member => ?_⟩
    rcases Assoc.mem_put member with rfl | old
    · refine .inr ⟨t, part, kind, name, ?_⟩
      dsimp only
      split
      · exact given
      · split <;> exact given
    · exact read.bindings entry old

theorem readFrom_addTagPart {tag t : Tree} (part : t ∈ tag.parts) {h : Head} (read : ReadFrom tag h) :
    ReadFrom tag (addTagPart h t) := by
  rw [addTagPart]
  split
  · rename_i kind
    rw [addAttribute_eq]
    cases found : said? t with
    | none => exact read
    | some given => exact readFrom_addSaid part kind found read
  · rw [addSpread]
    split
    · split
      · refine ⟨read.attributes, fun entry member => ?_⟩
        rcases Assoc.mem_put member with rfl | old
        · exact .inl ⟨rfl, rfl⟩
        · exact read.bindings entry old
      · exact read
    · exact read
  · exact read

theorem headOf_readFrom (ctx : MarkupContext) (tag : Tree) : Yields (ReadFrom tag) (headOf ctx tag) := by
  have resolved : Yields (fun h : Head => h.attributes = [] ∧ h.bindings = [])
      (resolveTag ctx (tag.fieldText .name)) := by
    rw [resolveTag]
    split
    · split
      · exact Yields.pure ⟨rfl, rfl⟩
      · exact Yields.after fun _ => Yields.pure ⟨rfl, rfl⟩
    · exact Yields.pure ⟨rfl, rfl⟩
  refine resolved.bind fun h bare => Yields.pure ?_
  have folded : ∀ (parts : List Tree) (h : Head), (∀ t ∈ parts, t ∈ tag.parts) → ReadFrom tag h →
      ReadFrom tag (parts.foldl addTagPart h) := by
    intro parts
    induction parts with
    | nil => exact fun h _ read => read
    | cons t parts ih =>
      intro h listed read
      exact ih _ (fun u member => listed u (by simp [member])) (readFrom_addTagPart (listed t (by simp)) read)
  exact folded tag.parts h (fun _ member => member) (readFrom_bare tag bare)

/-! ## Every element -/

/-- An element has the attributes of a tag in a tree. -/
def MadeOf (root : Tree) : Node → Prop
  | .element h _ => ∃ tag ∈ root.walk, ReadFrom tag h
  | _ => True

section Below

variable (ctx : MarkupContext) {root : Tree} {below : Tree → Noting (List Node)}
  (made : ∀ t ∈ root.walk, Yields (Everywhere (MadeOf root)) (below t))

include made

theorem childrenOf_made {t : Tree} (inside : t ∈ root.walk) :
    Yields (Everywhere (MadeOf root)) (childrenOf below t) := by
  refine (Yields.mapM _ fun u member => made u ?_).bind fun groups each => ?_
  · exact Tree.walk_trans root t u inside (Tree.mem_walk_of_mem_parts (List.mem_filter.mp member).1)
  · exact Yields.pure (everywhere_flatten each)

theorem elementOf_made {tag : Tree} (tagInside : tag ∈ root.walk) {whole : Option Tree}
    (wholeInside : ∀ t ∈ whole, t ∈ root.walk) :
    Yields (fun n => Everywhere (MadeOf root) [n]) (elementOf ctx below tag whole) := by
  refine (headOf_readFrom ctx tag).bind fun h read => ?_
  have childless : Everywhere (MadeOf root) [.element h []] :=
    everywhere_singleton.mpr ⟨⟨tag, tagInside, read⟩, everywhere_nil⟩
  cases whole with
  | none => exact Yields.pure childless
  | some t =>
    refine (childrenOf_made made (wholeInside t rfl)).bind fun children each => ?_
    split
    · exact Yields.after fun _ => Yields.pure childless
    · exact Yields.pure (everywhere_singleton.mpr ⟨⟨tag, tagInside, read⟩, each⟩)

theorem guardedBranch_made (guard : String) {branch : Option Tree} (inside : ∀ t ∈ branch, t ∈ root.walk) :
    Yields (Everywhere (MadeOf root)) (guardedBranch below guard branch) := by
  rw [guardedBranch]
  cases shown : branch.filter isMarkup with
  | none => exact Yields.pure everywhere_nil
  | some t =>
    have member : t ∈ branch := (Option.filter_eq_some_iff.mp shown).1
    refine (made t (inside t member)).bind fun nodes each => Yields.pure ?_
    cases nodes with
    | nil => exact everywhere_nil
    | cons n more =>
      cases more with
      | nil => exact everywhere_singleton.mpr ⟨trivial, each⟩
      | cons m ns => exact everywhere_singleton.mpr ⟨trivial, everywhere_singleton.mpr ⟨trivial, each⟩⟩

theorem expressionChild_made {container : Tree} (inside : container ∈ root.walk) :
    Yields (Everywhere (MadeOf root)) (expressionChild below container) := by
  rw [expressionChild]
  cases found : container.parts.head?.bind Tree.unwrap with
  | none => exact Yields.pure everywhere_nil
  | some e =>
    obtain ⟨part, first, unwrapped⟩ := Option.bind_eq_some_iff.mp found
    have expression : e ∈ root.walk := by
      have member : part ∈ container.walk := Tree.mem_walk_of_mem_parts (List.mem_of_mem_head? first)
      exact Tree.walk_trans root _ _ inside (Tree.walk_trans _ _ _ member (Tree.mem_walk_of_unwrap unwrapped))
    have field (r : Role) : ∀ t ∈ e.field? r, t ∈ root.walk := fun t member =>
      Tree.walk_trans root e t expression (Tree.mem_walk_of_field? member)
    dsimp only
    split
    · exact Yields.pure (everywhere_leaf trivial rfl)
    · split
      · exact Yields.pure everywhere_nil
      · split
        · refine (guardedBranch_made made _ (field _)).bind fun shown each => ?_
          split
          · exact Yields.pure each
          · exact Yields.pure (everywhere_leaf trivial rfl)
        · exact Yields.pure (everywhere_leaf trivial rfl)
      · refine (guardedBranch_made made _ (field _)).bind fun yes eachYes => ?_
        refine (guardedBranch_made made _ (field _)).bind fun no eachNo => Yields.pure ?_
        split
        · exact everywhere_leaf trivial rfl
        · exact everywhere_append eachYes eachNo
      · exact Yields.pure (everywhere_leaf trivial rfl)

theorem convertNode_made {t : Tree} (inside : t ∈ root.walk) :
    Yields (Everywhere (MadeOf root)) (convertNode ctx below t) := by
  rw [convertNode]
  cases unwrapped : t.unwrap with
  | none => exact Yields.pure everywhere_nil
  | some u =>
    have inside' : u ∈ root.walk := Tree.walk_trans root t u inside (Tree.mem_walk_of_unwrap unwrapped)
    dsimp only
    split
    · split
      · refine (childrenOf_made made inside').bind fun children each => ?_
        exact Yields.pure (everywhere_singleton.mpr ⟨trivial, each⟩)
      · split
        · rename_i tag opens
          have tagInside := Tree.walk_trans root u tag inside' (Tree.mem_walk_of_field? opens)
          refine (elementOf_made ctx made tagInside ?_).bind fun n here => Yields.pure here
          rintro _ ⟨⟩
          exact inside'
        · exact Yields.pure (everywhere_leaf ⟨u, inside', readFrom_bare u ⟨rfl, rfl⟩⟩ rfl)
    · exact (elementOf_made ctx made inside' (by simp)).bind fun n here => Yields.pure here
    · refine Yields.pure ?_
      split
      · exact everywhere_nil
      · exact everywhere_leaf trivial rfl
    · exact Yields.pure (everywhere_leaf trivial rfl)
    · exact expressionChild_made made inside'
    · exact Yields.pure (everywhere_leaf trivial rfl)

end Below

theorem convertUpTo_made (ctx : MarkupContext) {root : Tree} (n : Nat) {t : Tree} (inside : t ∈ root.walk) :
    Yields (Everywhere (MadeOf root)) (convertUpTo ctx n t) := by
  induction n generalizing t with
  | zero => exact Yields.pure everywhere_nil
  | succ n ih => exact convertNode_made ctx (fun u member => ih member) inside

/-- Every element of the markup that is made of a tree has the attributes of a tag in it. -/
theorem convertRoot_made (ctx : MarkupContext) (root : Tree) :
    Yields (Everywhere (MadeOf root)) (convertRoot ctx root) := by
  rw [convertRoot]
  cases unwrapped : root.unwrap with
  | none => exact Yields.pure everywhere_nil
  | some u =>
    have inside := Tree.mem_walk_of_unwrap unwrapped
    dsimp only
    split
    · exact childrenOf_made (fun t member => convertUpTo_made ctx _ member) inside
    · exact convertUpTo_made ctx _ inside

end Recast.Analysis
