import Recast.Proofs.Layout.Flat

/-!
# Runs of text

Text and expressions that stand next to each other among the children of an element or of a fragment
share a line: it holds their spellings one behind the other, trimmed at the two ends of the run only,
and nothing else but tags around them. At the top of a component there is no such rule, and each text
has a line of its own.
-/

set_option autoImplicit false

namespace Recast.Markup

namespace Node

def isText : Node → Bool
  | .text _ _ => true
  | _ => false

/-- Elements and fragments have children that are laid out together. -/
def isParent : Node → Bool
  | .element _ _ => true
  | .fragment _ => true
  | _ => false

end Node

/-- Siblings that are text, with other nodes or nothing around them. -/
structure MaximalRun (before run behind : List Node) : Prop where
  nonempty : run ≠ []
  texts : ∀ n ∈ run, n.isText = true
  opens : ∀ n, before.getLast? = some n → n.isText = false
  closes : ∀ n, behind.head? = some n → n.isText = false

end Recast.Markup

namespace Recast.Layout

open Recast.Text Recast.Generate Recast.Markup

/-! ## Pieces -/

def isBlock : Piece → Bool
  | .inline _ => false
  | .block _ => true

theorem runLine_nil (depth : Nat) : runLine depth [] = [] := layout_nil depth

theorem layoutFrom_inline (depth : Nat) (opened run : List String) (behind : List Piece) :
    layoutFrom depth opened (run.map .inline ++ behind) = layoutFrom depth (opened ++ run) behind := by
  induction run generalizing opened with
  | nil => rw [List.map_nil, List.nil_append, List.append_nil]
  | cons text run ih => rw [List.map_cons, List.cons_append, layoutFrom, ih, List.append_assoc,
      List.singleton_append]

/-- A run ends in front of a block. -/
theorem layoutFrom_block {behind : List Piece} (closes : ∀ p, behind.head? = some p → isBlock p = true)
    (depth : Nat) (run : List String) :
    layoutFrom depth run behind = runLine depth run ++ layout depth behind := by
  cases behind with
  | nil => rw [layoutFrom, layout_nil, List.append_nil]
  | cons p behind =>
    cases p with
    | inline text => cases closes _ rfl
    | block lines =>
      rw [layout, layoutFrom, layoutFrom, runLine_nil, List.nil_append, List.append_assoc]

/-- Behind a block, layout starts anew. -/
theorem layoutFrom_append {before : List Piece} (ends : ∀ p, before.getLast? = some p → isBlock p = true)
    (depth : Nat) {opened : List String} (closed : before = [] → opened = []) (behind : List Piece) :
    layoutFrom depth opened (before ++ behind) = layoutFrom depth opened before ++ layout depth behind := by
  induction before generalizing opened with
  | nil =>
    rw [closed rfl, List.nil_append, layoutFrom, runLine_nil, List.nil_append]
    rfl
  | cons p before ih =>
    have rest : ∀ q, before.getLast? = some q → isBlock q = true := by
      intro q last
      exact ends q (by rw [List.getLast?_cons, last]; rfl)
    cases p with
    | inline text =>
      have more : before = [] → opened ++ [text] = [] := by
        rintro rfl
        cases ends _ rfl
      rw [List.cons_append, layoutFrom, layoutFrom, ih rest more]
    | block lines =>
      rw [List.cons_append, layoutFrom, layoutFrom, ih rest fun _ => rfl]
      simp only [List.append_assoc]

theorem layout_run {before behind : List Piece} (opens : ∀ p, before.getLast? = some p → isBlock p = true)
    (closes : ∀ p, behind.head? = some p → isBlock p = true) (depth : Nat) (run : List String) :
    layout depth (before ++ (run.map .inline ++ behind)) =
      layout depth before ++ runLine depth run ++ layout depth behind := by
  have whole := @layoutFrom_append before opens depth [] (fun _ => rfl) (run.map .inline ++ behind)
  have inside : layout depth (run.map .inline ++ behind) = runLine depth run ++ layout depth behind := by
    rw [layout, layoutFrom_inline, List.nil_append, layoutFrom_block closes]
  rw [layout, whole, inside, List.append_assoc]
  rfl

/-- The lines of a block stand as they are. -/
theorem mem_layout {pieces : List Piece} {lines : List String} (member : .block lines ∈ pieces)
    (depth : Nat) {line : String} (inside : line ∈ lines) : line ∈ layout depth pieces := by
  have general : ∀ opened, line ∈ layoutFrom depth opened pieces := by
    induction pieces with
    | nil => cases member
    | cons p pieces ih =>
      intro opened
      rcases List.mem_cons.mp member with rfl | later
      · rw [layoutFrom]
        exact List.mem_append_left _ (List.mem_append_right _ inside)
      · cases p with
        | inline text => exact ih later _
        | block others =>
          rw [layoutFrom]
          exact List.mem_append_right _ (ih later [])
  exact general []

/-! ## Text on a line -/

/-- A text that is not empty and has no blanks at its ends. -/
structure Trimmed (text : String) : Prop where
  nonempty : text.toList ≠ []
  starts : text.toList.dropWhile isBlank = text.toList
  ends : dropEndWhile isBlank text.toList = text.toList

theorem strip_trimmed {text : String} (nonempty : strip text ≠ "") : Trimmed (strip text) := by
  have chars : (strip text).toList = dropEndWhile isBlank (text.toList.dropWhile isBlank) := by
    rw [strip, String.toList_ofList]
    rfl
  refine ⟨fun empty => nonempty (String.toList_eq_nil_iff.mp empty), ?_, ?_⟩
  · rw [chars]
    exact dropWhile_of_isPrefix (List.rdropWhile_prefix isBlank _) (List.dropWhile_idempotent isBlank _)
  · rw [chars]
    exact List.rdropWhile_idempotent isBlank _

/-- A text with nothing else on its line than indentation and tags. -/
def AloneOn (line text : String) : Prop :=
  ∃ front back : List Char, line.toList = front ++ text.toList ++ back ∧
    (front.all isBlank = true ∨ front.getLast? = some '>') ∧ (back = [] ∨ ['<', '/'] <+: back)

def HasLine (lines : List String) (text : String) : Prop := ∃ line ∈ lines, AloneOn line text

/-- Every text with a line to itself in one rendering has one in another. -/
def Embeds (inner outer : List String) : Prop :=
  ∀ text, Trimmed text → HasLine inner text → HasLine outer text

theorem Embeds.refl (lines : List String) : Embeds lines lines := fun _ _ shown => shown

theorem Embeds.trans {a b c : List String} (first : Embeds a b) (second : Embeds b c) : Embeds a c :=
  fun text trimmed shown => second text trimmed (first text trimmed shown)

theorem Embeds.of_subset {inner outer : List String} (part : ∀ line ∈ inner, line ∈ outer) :
    Embeds inner outer := by
  rintro text - ⟨line, member, alone⟩
  exact ⟨line, part line member, alone⟩

/-- Trimming a line leaves a trimmed text on it alone. -/
theorem stripChars_around {text : String} (trimmed : Trimmed text) (front back : List Char) :
    stripChars (front ++ text.toList ++ back) =
      front.dropWhile isBlank ++ text.toList ++ dropEndWhile isBlank back := by
  obtain ⟨nonempty, starts, ends⟩ := trimmed
  have behind : (text.toList ++ back).dropWhile isBlank = text.toList ++ back := by
    rw [List.dropWhile_append, starts, if_neg (by simpa using nonempty)]
  have first : (front ++ (text.toList ++ back)).dropWhile isBlank =
      front.dropWhile isBlank ++ (text.toList ++ back) := by
    rw [List.dropWhile_append, behind]
    split
    · rename_i empty
      rw [List.isEmpty_iff.mp empty, List.nil_append]
    · rfl
  have last : dropEndWhile isBlank (text.toList ++ back) = text.toList ++ dropEndWhile isBlank back := by
    by_cases blank : dropEndWhile isBlank back = []
    · rw [dropEndWhile_append_of_eq_nil blank, ends, blank, List.append_nil]
    · rw [dropEndWhile_append_of_ne_nil blank]
  have kept : dropEndWhile isBlank (text.toList ++ back) ≠ [] := by
    rw [last]
    simp [nonempty]
  rw [stripChars, trimWhile, List.append_assoc, first, dropEndWhile_append_of_ne_nil kept, last,
    List.append_assoc]

theorem getLast?_dropWhile {p : Char → Bool} {c : Char} (other : p c = false) {cs : List Char}
    (last : cs.getLast? = some c) : (cs.dropWhile p).getLast? = some c := by
  obtain ⟨init, rfl⟩ := List.getLast?_eq_some_iff.mp last
  rw [List.dropWhile_append]
  split
  · simp [other]
  · simp

theorem prefix_dropEndWhile {back : List Char} (closing : ['<', '/'] <+: back) :
    ['<', '/'] <+: dropEndWhile isBlank back := by
  obtain ⟨rest, rfl⟩ := closing
  by_cases blank : dropEndWhile isBlank rest = []
  · rw [dropEndWhile_append_of_eq_nil blank]
    exact List.prefix_refl _
  · rw [dropEndWhile_append_of_ne_nil blank]
    exact List.prefix_append _ _

/-- On the line of an element that it fills, a text has only more tags around it. -/
theorem aloneOn_element {line text : String} (trimmed : Trimmed text) (alone : AloneOn line text)
    (depth : Nat) (opening tag : String) :
    AloneOn (pad depth ++ opening ++ ">" ++ strip line ++ ("</" ++ tag ++ ">")) text := by
  obtain ⟨front, back, parts, before, behind⟩ := alone
  have stripped : (strip line).toList =
      front.dropWhile isBlank ++ text.toList ++ dropEndWhile isBlank back := by
    rw [strip, String.toList_ofList, parts, stripChars_around trimmed]
  refine ⟨(pad depth ++ opening ++ ">").toList ++ front.dropWhile isBlank,
    dropEndWhile isBlank back ++ ("</" ++ tag ++ ">").toList, ?_, .inr ?_, .inr ?_⟩
  · rw [String.toList_append, String.toList_append, stripped]
    simp only [List.append_assoc]
  · rcases before with blank | tagged
    · have gone : front.dropWhile isBlank = [] := by
        rw [List.dropWhile_eq_nil_iff]
        exact fun c member => List.all_eq_true.mp blank c member
      rw [gone, List.append_nil, String.toList_append]
      exact List.getLast?_concat
    · have kept := getLast?_dropWhile (p := isBlank) (by decide) tagged
      rw [List.getLast?_append, kept]
      rfl
  · rcases behind with rfl | closing
    · rw [String.toList_append, String.toList_append]
      exact ⟨tag.toList ++ ">".toList, by simp [dropEndWhile]⟩
    · exact (prefix_dropEndWhile closing).trans (List.prefix_append _ _)

/-- What has a line in the content of an element has one in the element. -/
theorem embeds_elementLines (depth : Nat) (opening tag : String) (closesItself isInline : Bool)
    (content : List String) :
    Embeds content (elementLines depth opening tag closesItself isInline content) := by
  match content with
  | [] =>
    rintro text - ⟨line, member, -⟩
    cases member
  | [line] =>
    rw [elementLines]
    cases isInline with
    | false => exact Embeds.of_subset (by simp)
    | true =>
      rintro text trimmed ⟨found, member, alone⟩
      obtain rfl := List.mem_singleton.mp member
      exact ⟨_, List.mem_singleton.mpr rfl, aloneOn_element trimmed alone depth opening tag⟩
  | line :: next :: rest =>
    have around : elementLines depth opening tag closesItself isInline (line :: next :: rest) =
      [pad depth ++ opening ++ ">"] ++ (line :: next :: rest) ++ [pad depth ++ ("</" ++ tag ++ ">")] := rfl
    rw [around]
    exact Embeds.of_subset fun found member => List.mem_append_left _ (List.mem_append_right _ member)

theorem hasLine_runLine (depth : Nat) {run : List String} (shown : strip (String.join run) ≠ "") :
    HasLine (runLine depth run) (strip (String.join run)) := by
  refine ⟨pad depth ++ strip (String.join run), ?_, (pad depth).toList, [], ?_, ?_, .inl rfl⟩
  · simp [runLine, shown]
  · simp
  · exact .inl (pad_blank depth)

/-- A placeholder stands in only where there are no lines. -/
theorem embeds_content (content : List String) (needed : Bool) (placeholder : String) :
    Embeds content (if content.isEmpty && needed then [placeholder] else content) := by
  cases content with
  | nil =>
    rintro text - ⟨line, member, -⟩
    cases member
  | cons line lines => exact Embeds.refl _

/-! ## Runs among siblings -/

/-- Pieces that stand for siblings, text inline and the rest as blocks. -/
def StandFor (ps : List Piece) (nodes : List Node) : Prop := ps.map isBlock = nodes.map (!·.isText)

theorem layout_maximalRun {before run behind : List Node} (maximal : MaximalRun before run behind)
    {ps qs : List Piece} (first : StandFor ps before) (last : StandFor qs behind) (depth : Nat)
    (texts : List String) :
    layout depth (ps ++ (texts.map .inline ++ qs)) =
      layout depth ps ++ runLine depth texts ++ layout depth qs := by
  refine layout_run ?_ ?_ depth texts
  · intro p ends
    have same := congrArg List.getLast? first
    rw [List.getLast?_map, List.getLast?_map, ends, Option.map_some] at same
    obtain ⟨n, found, kind⟩ := Option.map_eq_some_iff.mp same.symm
    rw [← kind, maximal.opens n found]
    rfl
  · intro p starts
    have same := congrArg List.head? last
    rw [List.head?_map, List.head?_map, starts, Option.map_some] at same
    obtain ⟨n, found, kind⟩ := Option.map_eq_some_iff.mp same.symm
    rw [← kind, maximal.closes n found]
    rfl

theorem hasLine_maximalRun {before run behind : List Node} (maximal : MaximalRun before run behind)
    {ps qs : List Piece} (first : StandFor ps before) (last : StandFor qs behind) (depth : Nat)
    {texts : List String} (shown : strip (String.join texts) ≠ "") :
    HasLine (layout depth (ps ++ (texts.map .inline ++ qs))) (strip (String.join texts)) := by
  rw [layout_maximalRun maximal first last]
  obtain ⟨line, member, alone⟩ := hasLine_runLine depth shown
  exact ⟨line, List.mem_append_left _ (List.mem_append_right _ member), alone⟩

theorem Trimmed.strip_eq {text : String} (trimmed : Trimmed text) : strip text = text := by
  have same := stripChars_around trimmed [] []
  rw [List.nil_append, List.append_nil] at same
  rw [strip, same]
  simp [dropEndWhile]

/-- Texts on lines of their own are laid out as a run only where there is one, and it is trimmed. -/
theorem eq_runLine_iff {texts : List String} (nonempty : texts ≠ []) :
    texts = runLine 0 texts ↔ ∃ text, texts = [text] ∧ Trimmed text := by
  have single : ∀ text, String.join [text] = text := by simp
  have unpadded : ∀ text, pad 0 ++ text = text := by
    intro text
    exact String.empty_append
  constructor
  · intro same
    obtain ⟨text, whole⟩ : ∃ text, strip (String.join texts) = text := ⟨_, rfl⟩
    rw [runLine, whole, unpadded] at same
    by_cases shown : text = ""
    · rw [if_pos shown] at same
      exact absurd same nonempty
    · rw [if_neg shown] at same
      rw [same, single] at whole
      exact ⟨text, same, whole ▸ strip_trimmed (whole.symm ▸ shown)⟩
  · rintro ⟨text, rfl, trimmed⟩
    have shown : text ≠ "" := fun empty => trimmed.nonempty (by rw [empty]; rfl)
    rw [runLine, single, trimmed.strip_eq, if_neg shown, unpadded]

/-- How a renderer deals with the runs of text in a forest. `render` gives the lines of a forest, and
says of a part of it whether the root is still ahead. -/
structure JoinsRuns (render : Bool → List Node → Except Report (List String)) (spelling : Node → String)
    (nodes : List Node) (lines : List String) : Prop where
  rendered : render true nodes = .ok lines
  /-- A run inside an element or a fragment has a line, unless there is nothing on it. -/
  inside : ∀ parent ∈ Node.preorderList nodes, parent.isParent = true →
    ∀ before run behind, parent.children = before ++ (run ++ behind) → MaximalRun before run behind →
      strip (String.join (run.map spelling)) ≠ "" → HasLine lines (strip (String.join (run.map spelling)))
  /-- At the top each text has a line as it is, which is the line of the run only for a single text that
  is trimmed. -/
  atTop : ∀ before run behind, nodes = before ++ (run ++ behind) → MaximalRun before run behind →
    ∃ front back, render true before = .ok front ∧ render (!anyElement before) behind = .ok back ∧
      lines = front ++ (run.map spelling ++ back) ∧
      (run.map spelling = runLine 0 (run.map spelling) ↔ ∃ n, run = [n] ∧ Trimmed (spelling n))

/-! ## Renderers

All that matters about a renderer here is how it passes lines on from children to parents. -/

/-- The lines of nodes, siblings and forests. A directive is what a node is told by a guard around it. -/
structure Renderer (Directive : Type) where
  spelling : Node → String
  plain : Directive
  node : Directive → Bool → Nat → Node → Except Report (List String)
  siblings : Bool → Nat → List Node → Except Report (List Piece)
  forest : Bool → List Node → Except Report (List String)
  node_ok : ∀ directive rootAhead depth n, Sound [n] → ∃ lines, node directive rootAhead depth n = .ok lines
  element : ∀ directive rootAhead depth (h : Head) children ps, h.isVoid = false →
    siblings false (depth + 1) children = .ok ps →
    ∃ lines, node directive rootAhead depth (.element h children) = .ok lines ∧
      Embeds (layout (depth + 1) ps) lines
  fragment : ∀ directive rootAhead depth children, ∃ depth', ∀ ps,
    siblings rootAhead depth' children = .ok ps →
    ∃ lines, node directive rootAhead depth (.fragment children) = .ok lines ∧ Embeds (layout depth' ps) lines
  guarded : ∀ directive rootAhead depth guard child, ∃ directive' depth', ∀ inner,
    node directive' rootAhead depth' child = .ok inner →
    ∃ lines, node directive rootAhead depth (.guarded guard child) = .ok lines ∧ Embeds inner lines
  siblings_nil : ∀ rootAhead depth, siblings rootAhead depth [] = .ok []
  siblings_text : ∀ rootAhead depth content isExpression ns ps, siblings rootAhead depth ns = .ok ps →
    siblings rootAhead depth (.text content isExpression :: ns) =
      .ok (.inline (spelling (.text content isExpression)) :: ps)
  siblings_block : ∀ rootAhead depth n ns lines ps, n.isText = false →
    node plain rootAhead depth n = .ok lines → siblings (rootAhead && !hasElement n) depth ns = .ok ps →
    siblings rootAhead depth (n :: ns) = .ok (.block lines :: ps)
  forest_nil : ∀ rootAhead, forest rootAhead [] = .ok []
  forest_cons : ∀ rootAhead n ns lines more, node plain rootAhead 0 n = .ok lines →
    forest (rootAhead && !hasElement n) ns = .ok more → forest rootAhead (n :: ns) = .ok (lines ++ more)
  node_text : ∀ rootAhead content isExpression,
    node plain rootAhead 0 (.text content isExpression) = .ok [spelling (.text content isExpression)]

namespace Renderer

variable {Directive : Type} (R : Renderer Directive)

theorem siblings_append {ns : List Node} (sound : Sound ns) (rootAhead : Bool) {depth : Nat} {ms : List Node}
    {qs : List Piece} (behind : R.siblings (rootAhead && !anyElement ns) depth ms = .ok qs) :
    ∃ ps, R.siblings rootAhead depth (ns ++ ms) = .ok (ps ++ qs) ∧ StandFor ps ns := by
  induction ns generalizing rootAhead with
  | nil =>
    rw [anyElement, Bool.not_false, Bool.and_true] at behind
    exact ⟨[], behind, rfl⟩
  | cons n ns ih =>
    obtain ⟨first, more⟩ := sound_cons.mp sound
    rw [anyElement, Bool.not_or, ← Bool.and_assoc] at behind
    obtain ⟨ps, rendered, kinds⟩ := ih more _ behind
    by_cases isText : ∃ content isExpression, n = .text content isExpression
    · obtain ⟨content, isExpression, rfl⟩ := isText
      rw [hasElement, Bool.not_false, Bool.and_true] at rendered
      refine ⟨_ :: ps, R.siblings_text _ _ _ _ _ _ rendered, ?_⟩
      rw [StandFor, List.map_cons, List.map_cons, kinds]
      rfl
    · have plain : n.isText = false := by
        cases n with
        | text content isExpression => exact absurd ⟨content, isExpression, rfl⟩ isText
        | _ => rfl
      obtain ⟨lines, here⟩ := R.node_ok R.plain rootAhead depth n first
      refine ⟨.block lines :: ps, R.siblings_block _ _ _ _ _ _ plain here rendered, ?_⟩
      rw [StandFor, List.map_cons, List.map_cons, kinds, plain]
      rfl

theorem siblings_ok {ns : List Node} (sound : Sound ns) (rootAhead : Bool) (depth : Nat) :
    ∃ ps, R.siblings rootAhead depth ns = .ok ps ∧ StandFor ps ns := by
  obtain ⟨ps, rendered, kinds⟩ := R.siblings_append sound rootAhead (R.siblings_nil _ depth)
  rw [List.append_nil, List.append_nil] at rendered
  exact ⟨ps, rendered, kinds⟩

theorem siblings_run {run : List Node} (texts : ∀ n ∈ run, n.isText = true) {rootAhead : Bool} {depth : Nat}
    {behind : List Node} {qs : List Piece} (rendered : R.siblings rootAhead depth behind = .ok qs) :
    R.siblings rootAhead depth (run ++ behind) = .ok ((run.map R.spelling).map .inline ++ qs) := by
  induction run with
  | nil => exact rendered
  | cons n run ih =>
    have here := texts n (by simp)
    cases n with
    | text content isExpression =>
      exact R.siblings_text _ _ _ _ _ _ (ih fun m member => texts m (by simp [member]))
    | _ => cases here

/-- A run among siblings has a line. -/
theorem siblings_hasLine {before run behind : List Node} (sound : Sound (before ++ (run ++ behind)))
    (maximal : MaximalRun before run behind) (shown : strip (String.join (run.map R.spelling)) ≠ "")
    (rootAhead : Bool) (depth : Nat) :
    ∃ ps, R.siblings rootAhead depth (before ++ (run ++ behind)) = .ok ps ∧
      HasLine (layout depth ps) (strip (String.join (run.map R.spelling))) := by
  obtain ⟨soundBefore, soundRest⟩ := sound_append.mp sound
  obtain ⟨qs, last, lastKinds⟩ :=
    R.siblings_ok (sound_append.mp soundRest).2 (rootAhead && !anyElement before) depth
  have middle := R.siblings_run maximal.texts last
  obtain ⟨ps, rendered, firstKinds⟩ := R.siblings_append soundBefore rootAhead middle
  exact ⟨_, rendered, hasLine_maximalRun maximal firstKinds lastKinds depth shown⟩

/-- The lines of a node show up in other lines. -/
def Shows (m : Node) (lines : List String) : Prop :=
  ∃ directive rootAhead depth inner, R.node directive rootAhead depth m = .ok inner ∧ Embeds inner lines

variable {R} in
theorem Shows.embeds {m : Node} {inner outer : List String} (shown : R.Shows m inner)
    (embeds : Embeds inner outer) : R.Shows m outer := by
  obtain ⟨directive, rootAhead, depth, own, rendered, first⟩ := shown
  exact ⟨directive, rootAhead, depth, own, rendered, first.trans embeds⟩

theorem shows_self {n : Node} (sound : Sound [n]) (directive : Directive) (rootAhead : Bool) (depth : Nat) :
    ∃ lines, R.node directive rootAhead depth n = .ok lines ∧ R.Shows n lines := by
  obtain ⟨lines, rendered⟩ := R.node_ok directive rootAhead depth n sound
  exact ⟨lines, rendered, directive, rootAhead, depth, lines, rendered, Embeds.refl lines⟩

-- Text is left out: it shares its line with its neighbours.
mutual
theorem node_shows : ∀ (n : Node) (directive : Directive) (rootAhead : Bool) (depth : Nat), Sound [n] →
    ∀ m ∈ n.preorder, m.isText = false →
      ∃ lines, R.node directive rootAhead depth n = .ok lines ∧ R.Shows m lines
  | .element h children, directive, rootAhead, depth, sound, m, member, block => by
    rw [Node.preorder, List.mem_cons] at member
    rcases member with rfl | below
    · exact R.shows_self sound directive rootAhead depth
    · obtain ⟨childless, soundBelow⟩ := sound_element.mp sound
      have opened : h.isVoid = false := by
        rw [← Bool.not_eq_true]
        intro isVoid
        rw [childless isVoid] at below
        cases below
      obtain ⟨ps, lines, rendered, piece, shown⟩ :=
        siblings_shows children false (depth + 1) soundBelow m below block
      obtain ⟨whole, renderedWhole, embeds⟩ :=
        R.element directive rootAhead depth h children ps opened rendered
      have inside : Embeds lines (layout (depth + 1) ps) := Embeds.of_subset fun _ => mem_layout piece _
      exact ⟨whole, renderedWhole, shown.embeds (inside.trans embeds)⟩
  | .fragment children, directive, rootAhead, depth, sound, m, member, block => by
    rw [Node.preorder, List.mem_cons] at member
    rcases member with rfl | below
    · exact R.shows_self sound directive rootAhead depth
    · obtain ⟨depth', passes⟩ := R.fragment directive rootAhead depth children
      obtain ⟨ps, lines, rendered, piece, shown⟩ :=
        siblings_shows children rootAhead depth' (sound_fragment.mp sound) m below block
      obtain ⟨whole, renderedWhole, embeds⟩ := passes ps rendered
      have inside : Embeds lines (layout depth' ps) := Embeds.of_subset fun _ => mem_layout piece _
      exact ⟨whole, renderedWhole, shown.embeds (inside.trans embeds)⟩
  | .guarded guard child, directive, rootAhead, depth, sound, m, member, block => by
    rw [Node.preorder, List.mem_cons] at member
    rcases member with rfl | below
    · exact R.shows_self sound directive rootAhead depth
    · obtain ⟨directive', depth', passes⟩ := R.guarded directive rootAhead depth guard child
      obtain ⟨inner, rendered, shown⟩ :=
        node_shows child directive' rootAhead depth' (sound_guarded.mp sound) m below block
      obtain ⟨whole, renderedWhole, embeds⟩ := passes inner rendered
      exact ⟨whole, renderedWhole, shown.embeds embeds⟩
  | .text content isExpression, _, _, _, _, m, member, block => by
    rw [Node.preorder, List.mem_singleton] at member
    subst member
    cases block
  | .slot name, directive, rootAhead, depth, sound, m, member, _ => by
    rw [Node.preorder, List.mem_singleton] at member
    subst member
    exact R.shows_self sound directive rootAhead depth
  | .foreign typeName, _, _, _, sound, _, _, _ => absurd sound (not_sound_foreign typeName)
theorem siblings_shows : ∀ (ns : List Node) (rootAhead : Bool) (depth : Nat), Sound ns →
    ∀ m ∈ Node.preorderList ns, m.isText = false →
      ∃ ps lines, R.siblings rootAhead depth ns = .ok ps ∧ .block lines ∈ ps ∧ R.Shows m lines
  | [], _, _, _, m, member, _ => by cases member
  | n :: ns, rootAhead, depth, sound, m, member, block => by
    obtain ⟨first, more⟩ := sound_cons.mp sound
    obtain ⟨rest, renderedRest, -⟩ := R.siblings_ok more (rootAhead && !hasElement n) depth
    rw [Node.preorderList, List.mem_append] at member
    rcases member with here | later
    · obtain ⟨lines, rendered, shown⟩ := node_shows n R.plain rootAhead depth first m here block
      have other : n.isText = false := by
        cases n with
        | text content isExpression =>
          rw [Node.preorder, List.mem_singleton] at here
          subst here
          exact block
        | _ => rfl
      exact ⟨.block lines :: rest, lines, R.siblings_block _ _ _ _ _ _ other rendered renderedRest,
        List.mem_cons_self, shown⟩
    · obtain ⟨ps, lines, rendered, piece, shown⟩ :=
        siblings_shows ns (rootAhead && !hasElement n) depth more m later block
      obtain ⟨qs, renderedAll, -⟩ := R.siblings_append first rootAhead
        (by rwa [anyElement, anyElement, Bool.or_false])
      exact ⟨qs ++ ps, lines, renderedAll, List.mem_append_right _ piece, shown⟩
end

/-- The children of a node are laid out together, and a run among them has a line. -/
theorem node_hasLine {parent : Node} (sound : Sound [parent]) (isParent : parent.isParent = true)
    {before run behind : List Node} (parts : parent.children = before ++ (run ++ behind))
    (maximal : MaximalRun before run behind) (shown : strip (String.join (run.map R.spelling)) ≠ "")
    (directive : Directive) (rootAhead : Bool) (depth : Nat) :
    ∃ lines, R.node directive rootAhead depth parent = .ok lines ∧
      HasLine lines (strip (String.join (run.map R.spelling))) := by
  have soundBelow : Sound (before ++ (run ++ behind)) := parts ▸ (sound_singleton.mp sound).2
  cases parent with
  | element h children =>
    obtain rfl : children = before ++ (run ++ behind) := parts
    have opened : h.isVoid = false := by
      rw [← Bool.not_eq_true]
      intro isVoid
      have empty := (sound_element.mp sound).1 isVoid
      simp [maximal.nonempty] at empty
    obtain ⟨ps, rendered, line⟩ := R.siblings_hasLine soundBelow maximal shown false (depth + 1)
    obtain ⟨lines, whole, embeds⟩ := R.element directive rootAhead depth h _ ps opened rendered
    exact ⟨lines, whole, embeds _ (strip_trimmed shown) line⟩
  | fragment children =>
    obtain rfl : children = before ++ (run ++ behind) := parts
    obtain ⟨depth', passes⟩ := R.fragment directive rootAhead depth (before ++ (run ++ behind))
    obtain ⟨ps, rendered, line⟩ := R.siblings_hasLine soundBelow maximal shown rootAhead depth'
    obtain ⟨lines, whole, embeds⟩ := passes ps rendered
    exact ⟨lines, whole, embeds _ (strip_trimmed shown) line⟩
  | _ => cases isParent

theorem forest_append {ns : List Node} (sound : Sound ns) (rootAhead : Bool) {ms : List Node}
    {back : List String} (behind : R.forest (rootAhead && !anyElement ns) ms = .ok back) :
    ∃ front, R.forest rootAhead ns = .ok front ∧ R.forest rootAhead (ns ++ ms) = .ok (front ++ back) := by
  induction ns generalizing rootAhead with
  | nil =>
    rw [anyElement, Bool.not_false, Bool.and_true] at behind
    exact ⟨[], R.forest_nil rootAhead, behind⟩
  | cons n ns ih =>
    obtain ⟨first, more⟩ := sound_cons.mp sound
    rw [anyElement, Bool.not_or, ← Bool.and_assoc] at behind
    obtain ⟨front, rendered, renderedAll⟩ := ih more _ behind
    obtain ⟨lines, here⟩ := R.node_ok R.plain rootAhead 0 n first
    refine ⟨lines ++ front, R.forest_cons _ _ _ _ _ here rendered, ?_⟩
    rw [List.cons_append, List.append_assoc]
    exact R.forest_cons _ _ _ _ _ here renderedAll

theorem forest_ok {ns : List Node} (sound : Sound ns) (rootAhead : Bool) :
    ∃ lines, R.forest rootAhead ns = .ok lines := by
  obtain ⟨lines, rendered, -⟩ := R.forest_append sound rootAhead (R.forest_nil _)
  exact ⟨lines, rendered⟩

/-- At the top each text is a line. -/
theorem forest_run {run : List Node} (texts : ∀ n ∈ run, n.isText = true) {rootAhead : Bool}
    {behind : List Node} {back : List String} (rendered : R.forest rootAhead behind = .ok back) :
    R.forest rootAhead (run ++ behind) = .ok (run.map R.spelling ++ back) := by
  induction run with
  | nil => exact rendered
  | cons n run ih =>
    have here := texts n (by simp)
    cases n with
    | text content isExpression =>
      have later := ih fun m member => texts m (by simp [member])
      have unchanged : (rootAhead && !hasElement (.text content isExpression)) = rootAhead := by
        rw [hasElement, Bool.not_false, Bool.and_true]
      rw [← unchanged] at later
      exact R.forest_cons rootAhead _ _ [_] _ (R.node_text rootAhead content isExpression) later
    | _ => cases here

theorem forest_shows {ns : List Node} (sound : Sound ns) {m : Node} (member : m ∈ Node.preorderList ns)
    (block : m.isText = false) (rootAhead : Bool) {lines : List String}
    (rendered : R.forest rootAhead ns = .ok lines) : R.Shows m lines := by
  induction ns generalizing rootAhead lines with
  | nil => cases member
  | cons n ns ih =>
    obtain ⟨first, more⟩ := sound_cons.mp sound
    obtain ⟨rest, renderedRest⟩ := R.forest_ok more (rootAhead && !hasElement n)
    rw [Node.preorderList, List.mem_append] at member
    rcases member with here | later
    · obtain ⟨own, renderedOwn, shown⟩ := R.node_shows n R.plain rootAhead 0 first m here block
      rw [R.forest_cons _ _ _ _ _ renderedOwn renderedRest] at rendered
      cases rendered
      exact shown.embeds (Embeds.of_subset fun _ => List.mem_append_left rest)
    · obtain ⟨own, renderedOwn⟩ := R.node_ok R.plain rootAhead 0 n first
      rw [R.forest_cons _ _ _ _ _ renderedOwn renderedRest] at rendered
      cases rendered
      exact (ih more later _ renderedRest).embeds (Embeds.of_subset fun _ => List.mem_append_right own)

theorem joinsRuns {nodes : List Node} (sound : Sound nodes) :
    ∃ lines, JoinsRuns R.forest R.spelling nodes lines := by
  obtain ⟨lines, rendered⟩ := R.forest_ok sound true
  refine ⟨lines, rendered, ?_, ?_⟩
  · intro parent member isParent before run behind parts maximal shown
    have block : parent.isText = false := by
      cases parent with
      | text => cases isParent
      | _ => rfl
    have soundParent := sound_of_mem_preorderList nodes sound parent member
    obtain ⟨directive, rootAhead, depth, inner, own, embeds⟩ :=
      R.forest_shows sound member block true rendered
    obtain ⟨found, same, line⟩ :=
      R.node_hasLine soundParent isParent parts maximal shown directive rootAhead depth
    rw [own] at same
    cases same
    exact embeds _ (strip_trimmed shown) line
  · rintro before run behind rfl maximal
    obtain ⟨soundBefore, soundRest⟩ := sound_append.mp sound
    obtain ⟨back, last⟩ := R.forest_ok (sound_append.mp soundRest).2 (!anyElement before)
    obtain ⟨front, first, whole⟩ :=
      R.forest_append soundBefore true (R.forest_run maximal.texts last)
    rw [rendered] at whole
    cases whole
    refine ⟨front, back, first, last, rfl, ?_⟩
    rw [eq_runLine_iff (by simpa using maximal.nonempty)]
    constructor
    · rintro ⟨text, single, trimmed⟩
      obtain ⟨n, rest, rfl, rfl, empty⟩ := List.map_eq_cons_iff.mp single
      rw [List.map_eq_nil_iff.mp empty]
      exact ⟨n, rfl, trimmed⟩
    · rintro ⟨n, rfl, trimmed⟩
      exact ⟨R.spelling n, rfl, trimmed⟩

end Renderer

namespace Svelte

open Recast.Generate.Svelte

variable (s : Setting)

def spelling : Node → String
  | .text content isExpression => textSpelling content isExpression
  | _ => ""

theorem pieces_text {rootAhead : Bool} {depth : Nat} {ns : List Node} {ps : List Piece}
    (rendered : pieces s rootAhead depth ns = .ok ps) (content : String) (isExpression : Bool) :
    pieces s rootAhead depth (.text content isExpression :: ns) =
      .ok (.inline (textSpelling content isExpression) :: ps) := by
  rw [pieces, hasElement, Bool.not_false, Bool.and_true, rendered]
  rfl

theorem pieces_block {rootAhead : Bool} {depth : Nat} {n : Node} {ns : List Node} {lines : List String}
    {ps : List Piece} (block : n.isText = false) (here : nodeLines s rootAhead depth n = .ok lines)
    (rendered : pieces s (rootAhead && !hasElement n) depth ns = .ok ps) :
    pieces s rootAhead depth (n :: ns) = .ok (.block lines :: ps) := by
  rw [pieces, here, rendered]
  · rfl
  · rintro content isExpression rfl
    cases block

/-- A guard is a line in front and one behind, and directives are not used. -/
def renderer : Renderer Unit where
  spelling := spelling
  plain := ()
  node _ := nodeLines s
  siblings := pieces s
  forest := forestLines s
  node_ok _ rootAhead depth n sound := by
    obtain ⟨lines, rendered, -⟩ := nodeLines_ink s n rootAhead depth sound
    exact ⟨lines, rendered⟩
  element _ rootAhead depth h children ps opened rendered := by
    rw [nodeLines, if_neg (Bool.eq_false_iff.mp opened), rendered]
    exact ⟨_, rfl, (embeds_content _ _ _).trans (embeds_elementLines depth _ _ _ _ _)⟩
  fragment _ rootAhead depth children := by
    refine ⟨depth, fun ps rendered => ?_⟩
    rw [nodeLines, rendered]
    exact ⟨_, rfl, Embeds.refl _⟩
  guarded _ rootAhead depth guard child := by
    refine ⟨(), depth + 1, fun inner rendered => ?_⟩
    rw [nodeLines, rendered]
    exact ⟨_, rfl, Embeds.of_subset fun _ member => List.mem_append_left _ (List.mem_append_right _ member)⟩
  siblings_nil rootAhead depth := by
    rw [pieces]
    rfl
  siblings_text _ _ content isExpression _ _ rendered := pieces_text s rendered content isExpression
  siblings_block _ _ _ _ _ _ block here rendered := pieces_block s block here rendered
  forest_nil _ := rfl
  forest_cons rootAhead n ns lines more here rendered := by
    rw [forestLines, here]
    exact congrArg (fun rest => rest >>= fun more => pure (lines ++ more)) rendered
  node_text rootAhead content isExpression := by
    rw [nodeLines]
    exact congrArg (fun line => Except.ok [line]) String.empty_append

end Svelte

namespace Vue

open Recast.Generate.Vue

variable (s : Setting)

def spelling : Node → String
  | .text content isExpression => textSpelling s content isExpression
  | _ => ""

theorem pieces_text {rootAhead : Bool} {depth : Nat} {ns : List Node} {ps : List Piece}
    (rendered : pieces s rootAhead depth ns = .ok ps) (content : String) (isExpression : Bool) :
    pieces s rootAhead depth (.text content isExpression :: ns) =
      .ok (.inline (textSpelling s content isExpression) :: ps) := by
  rw [pieces, hasElement, Bool.not_false, Bool.and_true, rendered]
  rfl

theorem pieces_block {rootAhead : Bool} {depth : Nat} {n : Node} {ns : List Node} {lines : List String}
    {ps : List Piece} (block : n.isText = false) (here : nodeLines s rootAhead depth none n = .ok lines)
    (rendered : pieces s (rootAhead && !hasElement n) depth ns = .ok ps) :
    pieces s rootAhead depth (n :: ns) = .ok (.block lines :: ps) := by
  rw [pieces, here, rendered]
  · rfl
  · rintro content isExpression rfl
    cases block

theorem embeds_wrapped (depth : Nat) (directive : String) (inside : List String) :
    Embeds inside (wrapped depth directive inside) :=
  Embeds.of_subset fun _ member => List.mem_append_left _ (List.mem_append_right _ member)

/-- A guard passes its directive on to the node it guards. -/
def renderer : Renderer (Option String) where
  spelling := spelling s
  plain := none
  node directive rootAhead depth := nodeLines s rootAhead depth directive
  siblings := pieces s
  forest := forestLines s
  node_ok directive rootAhead depth n sound := by
    obtain ⟨lines, rendered, -⟩ := nodeLines_ink s n rootAhead depth directive sound
    exact ⟨lines, rendered⟩
  element directive rootAhead depth h children ps _ rendered := by
    rw [nodeLines, rendered]
    exact ⟨_, rfl, (embeds_content _ _ _).trans (embeds_elementLines depth _ _ _ _ _)⟩
  fragment directive rootAhead depth children := by
    cases directive with
    | none =>
      refine ⟨depth, fun ps rendered => ?_⟩
      rw [nodeLines, rendered]
      exact ⟨_, rfl, Embeds.refl _⟩
    | some d =>
      refine ⟨depth + 1, fun ps rendered => ?_⟩
      rw [nodeLines, rendered]
      exact ⟨_, rfl, embeds_wrapped depth d _⟩
  guarded directive rootAhead depth guard child := by
    cases directive with
    | none =>
      refine ⟨some (guardDirective s guard), depth, fun inner rendered => ⟨inner, ?_, Embeds.refl _⟩⟩
      rw [nodeLines, rendered]
    | some d =>
      refine ⟨some (guardDirective s guard), depth + 1, fun inner rendered => ?_⟩
      rw [nodeLines, rendered]
      exact ⟨_, rfl, embeds_wrapped depth d _⟩
  siblings_nil rootAhead depth := by
    rw [pieces]
    rfl
  siblings_text _ _ content isExpression _ _ rendered := pieces_text s rendered content isExpression
  siblings_block _ _ _ _ _ _ block here rendered := pieces_block s block here rendered
  forest_nil _ := rfl
  forest_cons rootAhead n ns lines more here rendered := by
    rw [forestLines, here]
    exact congrArg (fun rest => rest >>= fun more => pure (lines ++ more)) rendered
  node_text rootAhead content isExpression := by
    rw [nodeLines]
    exact congrArg (fun line => Except.ok [line]) String.empty_append

end Vue

/-- Both renderers join the runs of text inside elements and fragments, and leave those at the top of a
component on lines of their own. -/
theorem runs_share_lines (c : Component) (m : Metadata) (runes : Bool) (forest : Forest) :
    (∃ lines, JoinsRuns (Generate.Svelte.forestLines ⟨c, m, runes⟩) Svelte.spelling forest.nodes lines ∧
      Generate.Svelte.markup ⟨c, m, runes⟩ forest.nodes = .ok (join "\n" lines)) ∧
    ∃ lines, JoinsRuns (Generate.Vue.forestLines ⟨c, m⟩) (Vue.spelling ⟨c, m⟩) forest.nodes lines ∧
      Generate.Vue.template ⟨c, m⟩ forest.nodes = .ok (join "\n" lines) := by
  obtain ⟨markup, joins⟩ := (Svelte.renderer ⟨c, m, runes⟩).joinsRuns forest.sound
  obtain ⟨template, joins'⟩ := (Vue.renderer ⟨c, m⟩).joinsRuns forest.sound
  refine ⟨⟨markup, joins, ?_⟩, template, joins', ?_⟩
  · exact congrArg (Except.map (join "\n")) joins.rendered
  · exact congrArg (Except.map (join "\n")) joins'.rendered

def greeting : List Node := [.text "Hello " false, .text "name" true, .text "!" false]

example : Generate.Svelte.markup ⟨{ name := "Greeting" }, {}, true⟩ greeting =
    .ok "Hello \n\x7bname\x7d\n!" := by
  decide +kernel

example : Generate.Svelte.markup ⟨{ name := "Greeting" }, {}, true⟩ [.fragment greeting] =
    .ok "Hello \x7bname\x7d!" := by
  decide +kernel

end Recast.Layout
