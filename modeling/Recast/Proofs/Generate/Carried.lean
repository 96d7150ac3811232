import Recast.Proofs.Convert.All
import Recast.Proofs.Generate.Selection
import Recast.Proofs.Normalize.Indent

/-!
# Expressions that are carried over

Expressions of the source reach a generated component by seven routes, each with its own spelling in
each target. `generate_holds` says that every one of them stands in the component, up to blanks.
-/

set_option autoImplicit false

namespace Recast.Generate

open Recast.ClassExpr Recast.Layout Recast.Markup Recast.Text

inductive Route where
  | classBinding
  | attribute
  | event
  | guard
  | text
  | state
  | effect
  deriving DecidableEq, Repr

/-! ## Routes -/

/-- The route of a binding other than the class and the reference. -/
def bindingRoute? (entry : String × Binding) : Option Route :=
  match entry.2.kind with
  | .expression => if entry.1 = classKey ∨ entry.1 = refKey ∨ entry.1 = spreadKey then none else some .attribute
  | .event => some .event
  | .spread => none

/-- What an element carries over. Only Svelte keeps the expression of a reference. -/
def headCode (target : Target) (h : Head) : List (Route × String) :=
  ((h.bindings.get? classKey).map fun b => (Route.classBinding, b.code)).toList
    ++ (if target = .svelte then ((h.bindings.get? refKey).map fun b => (Route.attribute, b.code)).toList else [])
    ++ h.bindings.filterMap fun entry => (bindingRoute? entry).map (·, entry.2.code)

/-- What a node carries over itself. -/
def nodeCode (target : Target) : Node → List (Route × String)
  | .element h _ => headCode target h
  | .guarded guard _ => [(.guard, guard)]
  | .text content isExpression => if isExpression then [(.text, content)] else []
  | .fragment _ => []
  | .slot _ => []
  | .foreign _ => []

/-- All expressions that a component carries over. -/
def carried (target : Target) (c : Component) (m : Metadata) : List (Route × String) :=
  (Node.preorderList (markupOf c m)).flatMap (nodeCode target)
    ++ c.state.map (fun entry => (Route.state, entry.2)) ++ c.effects.map (fun body => (Route.effect, body))

/-- An expression as a target writes it. -/
def spelling (target : Target) (c : Component) (m : Metadata) (route : Route) (code : String) : String :=
  match target, route with
  | .svelte, .classBinding => adapt code .svelte (m.variant.map (·.name))
  | .svelte, _ => stripPropsAccess code
  | .vue, .classBinding => Vue.classExpression ⟨c, m⟩ code
  | .vue, .text => Vue.expression ⟨c, m⟩ code
  | .vue, .state => renameIdentifiers code (Vue.renamesOf c ("props." ++ ·))
  | .vue, .effect => renameIdentifiers code (Vue.renamesOf c ("props." ++ ·))
  | .vue, _ => attributeSafeQuotes (Vue.expression ⟨c, m⟩ code)

/-! ## What stands in a text -/

/-- One text stands in another, up to blanks. -/
def Shown (code text : String) : Prop := ink code <:+: ink text

namespace Shown

variable {code text : String}

theorem refl (code : String) : Shown code code := List.infix_rfl

theorem behind (shown : Shown code text) (front : String) : Shown code (front ++ text) := by
  rw [Shown, ink_append]
  exact shown.trans (List.suffix_append _ _).isInfix

theorem before (shown : Shown code text) (back : String) : Shown code (text ++ back) := by
  rw [Shown, ink_append]
  exact shown.trans (List.prefix_append _ _).isInfix

theorem openingTag {attributes : List String} (member : text ∈ attributes) (shown : Shown code text)
    (tag : String) : Shown code (openingTag tag attributes) := by
  have each : Shown code (String.join (attributes.map (" " ++ ·))) := by
    rw [Shown, ink_concat]
    have part : ink (" " ++ text) <:+: lineInk (attributes.map (" " ++ ·)) :=
      ink_infix_lineInk (List.mem_map_of_mem member)
    exact (shown.behind " ").trans part
  exact each.behind _

theorem join {texts : List String} (member : text ∈ texts) (shown : Shown code text) {sep : String}
    (blank : ink sep = []) : Shown code (Text.join sep texts) := by
  rw [Shown, ink_join blank]
  exact shown.trans (ink_infix_lineInk member)

theorem inTag (shown : Shown code text) (tag inside : String) (closes : Bool) :
    Shown code (flatElement text tag inside closes) := by
  rw [flatElement]
  split
  · exact shown.before _
  · exact ((((shown.before _).before _).before _).before _).before _

theorem inElement (shown : Shown code text) (opening tag : String) :
    Shown code (flatElement opening tag text false) := by
  rw [flatElement, if_neg Bool.false_ne_true]
  exact (((shown.behind _).before _).before _).before _

end Shown

theorem ink_indentLines (text : String) : ink (indentLines text) = ink text := by
  have general : ∀ (cs : List Char) (place : Normalize.Place),
      (Normalize.shift place cs).filter (!isBlank ·) = cs.filter (!isBlank ·) := by
    intro cs
    induction cs with
    | nil => intro place; rfl
    | cons c cs ih =>
      intro place
      have here : (place.shiftChar c).1.filter (!isBlank ·) = [c].filter (!isBlank ·) := by
        have lead : place.lead.filter (!isBlank ·) = [] := by cases place <;> rfl
        have gap : place.gap.filter (!isBlank ·) = [] := by cases place <;> rfl
        rw [Normalize.Place.shiftChar]
        split
        · rename_i feed
          rw [feed.2]
          rfl
        · split
          · rename_i ends
            have blank : isBlank c = true := by
              by_contra visible
              rw [Normalize.isLineEnd_eq_false_of_isBlank (by simpa using visible)] at ends
              cases ends
            rw [gap, List.filter_cons_of_neg (by simp [blank]), List.filter_nil]
          · rw [List.filter_append, lead, List.nil_append]
      rw [Normalize.shift, List.filter_append, ih, here, ← List.filter_append, List.singleton_append]
  rw [ink, Normalize.toList_indentLines, general]
  rfl

/-! ## Elements -/

/-- The attribute that an expression of an element is written in. -/
inductive WrittenIn (target : Target) : Route × String → Attribute → Prop
  | classBinding (code : String) : WrittenIn target (.classBinding, code) (.classExpression code)
  | ref (code : String) : target = .svelte → WrittenIn target (.attribute, code) (.ref code)
  | expression (name code : String) : WrittenIn target (.attribute, code) (.expression name code)
  | event (name code : String) : WrittenIn target (.event, code) (.event name code)

theorem exists_attribute {target : Target} {h : Head} {e : Route × String} (member : e ∈ headCode target h)
    (c : Component) (m : Metadata) (isRoot : Bool) :
    ∃ a ∈ attributesFor target c m h isRoot, WrittenIn target e a := by
  simp only [headCode, List.mem_append, Option.mem_toList, Option.map_eq_some_iff, List.mem_filterMap] at member
  rcases member with (⟨b, found, rfl⟩ | isRef) | ⟨⟨name, b⟩, listed, route, found, rfl⟩
  · exact ⟨_, mem_attributesFor_iff.mpr (.classExpression found), .classBinding b.code⟩
  · by_cases svelte : target = .svelte
    · rw [if_pos svelte] at isRef
      obtain ⟨b, found, rfl⟩ : ∃ b, h.bindings.get? refKey = some b ∧ (Route.attribute, b.code) = e := by
        simpa using isRef
      exact ⟨_, mem_attributesFor_iff.mpr (.ref found), .ref b.code svelte⟩
    · rw [if_neg svelte] at isRef
      cases isRef
  · rw [bindingRoute?] at found
    split at found
    · rename_i kind
      split at found
      · cases found
      · rename_i own
        cases found
        exact ⟨_, mem_attributesFor_iff.mpr (.expression listed kind own), .expression _ b.code⟩
    · rename_i kind
      cases found
      exact ⟨_, mem_attributesFor_iff.mpr (.event listed kind), .event _ b.code⟩
    · cases found

/-! ## Svelte -/

namespace Svelte

variable (s : Setting)

theorem attributeText_shown {e : Route × String} {a : Attribute} (written : WrittenIn .svelte e a) :
    Shown (spelling .svelte s.component s.metadata e.1 e.2) (attributeText s a) := by
  cases written with
  | classBinding code => exact (((Shown.refl _).behind "\x7b").before "\x7d").behind "class="
  | ref code => exact (((Shown.refl _).behind "\x7b").before "\x7d").behind "bind:this="
  | expression name code => exact (((Shown.refl _).behind "\x7b").before "\x7d").behind (name ++ "=")
  | event name code => exact (((Shown.refl _).behind "\x7b").before "\x7d").behind (eventAttribute s name ++ "=")

theorem opening_shown {h : Head} {e : Route × String} (member : e ∈ headCode .svelte h) (isRoot : Bool) :
    Shown (spelling .svelte s.component s.metadata e.1 e.2) (opening s h isRoot) := by
  obtain ⟨a, planned, written⟩ := exists_attribute member s.component s.metadata isRoot
  refine Shown.openingTag (List.mem_append_right _ (List.mem_map_of_mem planned)) ?_ _
  exact attributeText_shown s written

mutual
theorem flatNode_shown : ∀ (n : Node) (isRoot : Bool), Sound [n] →
    ∀ e ∈ n.preorder.flatMap (nodeCode .svelte),
      Shown (spelling .svelte s.component s.metadata e.1 e.2) (Layout.Svelte.flatNode s isRoot n)
  | .element h children, isRoot, sound, e, member => by
    rw [Node.preorder, List.flatMap_cons, List.mem_append] at member
    rw [Layout.Svelte.flatNode]
    rcases member with own | below
    · exact (opening_shown s own isRoot).inTag _ _ _
    · obtain ⟨childless, inside⟩ := sound_element.mp sound
      have shown := flatForest_shown children false inside e below
      -- an element that shows a child neither closes itself nor waits for the content of callers
      have parent : children ≠ [] := by
        rintro rfl
        cases below
      rw [if_neg fun needed => parent (needsPlaceholder_childless needed),
        Bool.eq_false_iff.mpr fun isVoid => parent (childless isVoid)]
      exact shown.inElement _ _
  | .fragment children, isRoot, sound, e, member => by
    rw [Node.preorder, List.flatMap_cons] at member
    exact flatForest_shown children isRoot (sound_fragment.mp sound) e member
  | .guarded guard child, isRoot, sound, e, member => by
    rw [Node.preorder, List.flatMap_cons, List.mem_append] at member
    rw [Layout.Svelte.flatNode]
    rcases member with own | below
    · obtain rfl := List.mem_singleton.mp own
      exact ((((Shown.refl _).behind _).before _).before _).before _
    · exact ((flatNode_shown child isRoot (sound_guarded.mp sound) e below).behind _).before _
  | .text content isExpression, isRoot, sound, e, member => by
    rw [Layout.Svelte.flatNode]
    cases isExpression with
    | false => cases member
    | true =>
      obtain rfl := List.mem_singleton.mp member
      exact ((Shown.refl _).behind _).before _
  | .slot name, isRoot, sound, e, member => by cases member
  | .foreign typeName, isRoot, sound, e, member => by cases member
theorem flatForest_shown : ∀ (ns : List Node) (isRoot : Bool), Sound ns →
    ∀ e ∈ (Node.preorderList ns).flatMap (nodeCode .svelte),
      Shown (spelling .svelte s.component s.metadata e.1 e.2) (Layout.Svelte.flatForest s isRoot ns)
  | [], isRoot, sound, e, member => by cases member
  | n :: ns, isRoot, sound, e, member => by
    obtain ⟨first, more⟩ := sound_cons.mp sound
    rw [Node.preorderList, List.flatMap_append, List.mem_append] at member
    rw [Layout.Svelte.flatForest]
    rcases member with here | later
    · exact (flatNode_shown n isRoot first e here).before _
    · exact (flatForest_shown ns _ more e later).behind _
end

end Svelte

/-! ## Vue -/

namespace Vue

variable (s : Setting)

theorem attributeText_shown {e : Route × String} {a : Attribute} (written : WrittenIn .vue e a) :
    Shown (spelling .vue s.component s.metadata e.1 e.2) (attributeText s a) := by
  cases written with
  | classBinding code => exact ((Shown.refl _).behind ":class=\"").before "\""
  | ref code other => cases other
  | expression name code => exact (((Shown.refl _).behind "\"").before "\"").behind (":" ++ name ++ "=")
  | event name code => exact (((Shown.refl _).behind "\"").before "\"").behind ("@" ++ name ++ "=")

theorem opening_shown {h : Head} {e : Route × String} (member : e ∈ headCode .vue h) (isRoot : Bool)
    (directive : Option String) :
    Shown (spelling .vue s.component s.metadata e.1 e.2) (opening s h isRoot directive) := by
  obtain ⟨a, planned, written⟩ := exists_attribute member s.component s.metadata isRoot
  refine Shown.openingTag (List.mem_append_right _ (List.mem_map_of_mem planned)) ?_ _
  exact attributeText_shown s written

theorem guard_shown (guard : String) : Shown (spelling .vue s.component s.metadata .guard guard)
    (guardDirective s guard) :=
  (((Shown.refl _).behind "\"").before "\"").behind "v-if="

/-- A directive stands in front of the node that it is given to. -/
theorem directive_shown {code directive : String} (shown : Shown code directive) (isRoot : Bool) (n : Node) :
    Shown code (Layout.Vue.flatUnder s isRoot (some directive) n) := by
  have around (inside : String) : Shown code (Layout.Vue.flatWrapped directive inside) :=
    (((shown.behind _).before _).before _).before _
  cases n with
  | element h children =>
    have listed : directive ∈ (if h.isWrappedPrimitive then [":is=\"" ++ h.tag ++ "\""] else [])
        ++ (some directive).toList
        ++ (attributesOf s.component s.metadata h isRoot).map (attributeText s) := by simp
    exact (Shown.openingTag listed shown _).inTag _ _ _
  | text content isExpression => exact around _
  | fragment children => exact around _
  | guarded guard child => exact around _
  | slot name => exact around _
  | foreign typeName => exact around _

/-- What a node shows, it shows under a directive too, unless it is an element. -/
theorem flatUnder_shown {code : String} {isRoot : Bool} {n : Node} (other : ∀ h children, n ≠ .element h children)
    (shown : Shown code (Layout.Vue.flatNode s isRoot n)) (directive : Option String) :
    Shown code (Layout.Vue.flatUnder s isRoot directive n) := by
  cases directive with
  | none => exact shown
  | some d =>
    rw [Layout.Vue.flatUnder]
    · exact (shown.behind _).before _
    · exact other

mutual
theorem flatNode_shown : ∀ (n : Node) (isRoot : Bool) (directive : Option String), Sound [n] →
    ∀ e ∈ n.preorder.flatMap (nodeCode .vue),
      Shown (spelling .vue s.component s.metadata e.1 e.2) (Layout.Vue.flatUnder s isRoot directive n)
  | .element h children, isRoot, directive, sound, e, member => by
    have whole : Layout.Vue.flatUnder s isRoot directive (.element h children) =
        Layout.Vue.flatTagged s isRoot directive h children (Layout.Vue.flatForest s false children) := by
      cases directive with
      | none => rw [Layout.Vue.flatUnder, Layout.Vue.flatNode]
      | some d => rw [Layout.Vue.flatUnder]
    rw [Node.preorder, List.flatMap_cons, List.mem_append] at member
    rw [whole, Layout.Vue.flatTagged]
    rcases member with own | below
    · exact (opening_shown s own isRoot directive).inTag _ _ _
    · obtain ⟨childless, inside⟩ := sound_element.mp sound
      have shown := flatForest_shown children false inside e below
      have parent : children ≠ [] := by
        rintro rfl
        cases below
      rw [if_neg fun needed => parent (needsPlaceholder_childless needed),
        Bool.eq_false_iff.mpr fun closes => parent (closesItself_childless closes childless).1]
      exact shown.inElement _ _
  | .fragment children, isRoot, directive, sound, e, member => by
    rw [Node.preorder, List.flatMap_cons] at member
    have shown := flatForest_shown children isRoot (sound_fragment.mp sound) e member
    rw [← Layout.Vue.flatNode] at shown
    exact flatUnder_shown s (by simp) shown directive
  | .guarded guard child, isRoot, directive, sound, e, member => by
    rw [Node.preorder, List.flatMap_cons, List.mem_append] at member
    refine flatUnder_shown s (by simp) ?_ directive
    rw [Layout.Vue.flatNode_guarded]
    rcases member with own | below
    · obtain rfl := List.mem_singleton.mp own
      exact directive_shown s (guard_shown s guard) isRoot child
    · exact flatNode_shown child isRoot _ (sound_guarded.mp sound) e below
  | .text content isExpression, isRoot, directive, sound, e, member => by
    refine flatUnder_shown s (by simp) ?_ directive
    rw [Layout.Vue.flatNode]
    cases isExpression with
    | false => cases member
    | true =>
      obtain rfl := List.mem_singleton.mp member
      exact ((Shown.refl _).behind _).before _
  | .slot name, isRoot, directive, sound, e, member => by cases member
  | .foreign typeName, isRoot, directive, sound, e, member => by cases member
theorem flatForest_shown : ∀ (ns : List Node) (isRoot : Bool), Sound ns →
    ∀ e ∈ (Node.preorderList ns).flatMap (nodeCode .vue),
      Shown (spelling .vue s.component s.metadata e.1 e.2) (Layout.Vue.flatForest s isRoot ns)
  | [], isRoot, sound, e, member => by cases member
  | n :: ns, isRoot, sound, e, member => by
    obtain ⟨first, more⟩ := sound_cons.mp sound
    rw [Node.preorderList, List.flatMap_append, List.mem_append] at member
    rw [Layout.Vue.flatForest]
    rcases member with here | later
    · exact (flatNode_shown n isRoot none first e here).before _
    · exact (flatForest_shown ns _ more e later).behind _
end

end Vue

/-! ## Components -/

/-- A component shows a text, in its markup or in a declaration. -/
def Generated.Holds (g : Generated) (code : String) : Prop :=
  Shown code g.markupBlock ∨ ∃ d ∈ g.declarations, Shown code d.code ∨ Shown code d.value

theorem mem_sortDeclarations {ds : List Declaration} {d : Declaration} : d ∈ sortDeclarations ds ↔ d ∈ ds :=
  (List.mergeSort_perm ds _).mem_iff

theorem Shown.of_ink {code text text' : String} (shown : Shown code text) (same : ink text' = ink text) :
    Shown code text' := by
  rwa [Shown, same]

theorem Svelte.generate_holds {c : Component} (sound : Sound c.root) (o : Options) :
    ∃ g, Svelte.generate c o = .ok g ∧
      g.declarations = Svelte.declarations c c.props (metadataOf c) o
        (Svelte.callsMerge ⟨c, metadataOf c, o.svelte.runes⟩ (markupOf c (metadataOf c))) ∧
      ∀ e ∈ carried .svelte c (metadataOf c), g.Holds (spelling .svelte c (metadataOf c) e.1 e.2) := by
  have nodes := markupOf_sound sound (metadataOf c)
  obtain ⟨text, rendered, same⟩ := Layout.Svelte.markup_ink ⟨c, metadataOf c, o.svelte.runes⟩ nodes
  rw [Svelte.generate, rendered]
  refine ⟨_, rfl, rfl, ?_⟩
  intro e member
  simp only [carried, List.mem_append, List.mem_map] at member
  rcases member with (inMarkup | ⟨entry, state, rfl⟩) | ⟨body, effect, rfl⟩
  · have shown := Svelte.flatForest_shown ⟨c, metadataOf c, o.svelte.runes⟩ _ true nodes e inMarkup
    exact .inl (shown.of_ink same)
  · refine .inr ⟨{ kind := .state, name := entry.1, value := stripPropsAccess entry.2 },
      mem_sortDeclarations.mpr ?_, .inr (Shown.refl _)⟩
    simp only [List.mem_append, List.mem_map]
    exact .inl (.inl (.inr ⟨entry, state, rfl⟩))
  · refine .inr ⟨{ kind := .effect, value := stripPropsAccess body }, mem_sortDeclarations.mpr ?_,
      .inr (Shown.refl _)⟩
    simp only [List.mem_append, List.mem_map]
    exact .inl (.inr ⟨body, effect, rfl⟩)

theorem Vue.generate_holds {c : Component} (sound : Sound c.root) (o : Options) :
    ∃ g, Vue.generate c o = .ok g ∧
      g.declarations = Vue.declarations c c.props (metadataOf c) o
        (Vue.callsMerge ⟨c, metadataOf c⟩ (markupOf c (metadataOf c))) ∧
      ∀ e ∈ carried .vue c (metadataOf c), g.Holds (spelling .vue c (metadataOf c) e.1 e.2) := by
  have nodes := markupOf_sound sound (metadataOf c)
  obtain ⟨text, rendered, same⟩ := Layout.Vue.template_ink ⟨c, metadataOf c⟩ nodes
  rw [Vue.generate, rendered]
  refine ⟨_, rfl, rfl, ?_⟩
  intro e member
  simp only [carried, List.mem_append, List.mem_map] at member
  rcases member with (inMarkup | ⟨entry, state, rfl⟩) | ⟨body, effect, rfl⟩
  · have shown := Vue.flatForest_shown ⟨c, metadataOf c⟩ _ true nodes e inMarkup
    have inside := shown.of_ink ((ink_indentLines text).trans same)
    exact .inl ((inside.behind _).before _)
  · have shown := ((Shown.refl (renameIdentifiers entry.2 (renamesOf c ("props." ++ ·)))).behind
      ("const " ++ entry.1 ++ " = ref(")).before ");"
    refine .inr ⟨{ kind := .state, name := entry.1, code := _ }, mem_sortDeclarations.mpr ?_, .inl shown⟩
    simp only [List.mem_append, List.mem_map]
    exact .inl (.inl (.inr ⟨entry, state, rfl⟩))
  · have indented := (Shown.refl (renameIdentifiers body (renamesOf c ("props." ++ ·)))).of_ink
      (ink_indentLines _)
    have shown := (indented.behind "onMounted(() => \x7b\n").before "\n\x7d);"
    refine .inr ⟨{ kind := .effect, code := _ }, mem_sortDeclarations.mpr ?_, .inl shown⟩
    simp only [List.mem_append, List.mem_map]
    exact .inl (.inr ⟨body, effect, rfl⟩)

end Recast.Generate
