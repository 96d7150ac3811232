import Recast.Proofs.Generate.Selection
import Recast.Proofs.Layout.Flat

/-!
# Drawings

A drawing is a forest in which every element has been decided on but nothing has been spelled: its tag,
native or dynamic, its attributes in order, and whether it shows the content of callers. Each renderer
chooses attributes by itself and so makes a drawing of its own, which it then spells. `renderers_agree`
says that the two drawings are one, and that its elements are those of the forest in document order.
-/

set_option autoImplicit false

namespace Recast.Layout

open Recast.Text Recast.Generate Recast.Markup

inductive Tag where
  | native (name : String)
  /-- A component that is looked up under a dotted name. -/
  | dynamic (name : String)
  deriving DecidableEq, Repr

def Tag.name : Tag → String
  | native name => name
  | dynamic name => name

def tagOf (h : Head) : Tag := if h.isWrappedPrimitive then .dynamic h.tag else .native h.tag

inductive AttributeKind where
  | classes
  | static
  | expression
  | planned
  | ref
  | event
  | spread
  deriving DecidableEq, Repr

/-- What an attribute is, apart from its spelling. -/
structure Trait where
  kind : AttributeKind
  name : String
  deriving DecidableEq, Repr

def traitOf : Attribute → Trait
  | .classExpression _ => ⟨.classes, classKey⟩
  | .classText _ => ⟨.classes, classKey⟩
  | .static name _ => ⟨.static, name⟩
  | .expression name _ => ⟨.expression, name⟩
  | .gained g => ⟨.planned, g.name⟩
  | .ref _ => ⟨.ref, refKey⟩
  | .event name _ => ⟨.event, name⟩
  | .spread => ⟨.spread, spreadKey⟩

/-- What is decided on an element. -/
structure Look where
  tag : Tag
  attributes : List Attribute
  showsCallers : Bool
  deriving DecidableEq, Repr

inductive Drawing where
  | element (look : Look) (children : List Drawing)
  | text (content : String) (isExpression : Bool)
  | fragment (children : List Drawing)
  | guarded (guard : String) (child : Drawing)
  | slot

mutual
/-- The looks of all elements, parents first. -/
def Drawing.looks : Drawing → List Look
  | .element look children => look :: looksIn children
  | .text _ _ => []
  | .fragment children => looksIn children
  | .guarded _ child => child.looks
  | .slot => []
def looksIn : List Drawing → List Look
  | [] => []
  | d :: ds => d.looks ++ looksIn ds
end

section Draw

-- how the attributes of an element are chosen, given whether it is the root
variable (select : Head → Bool → List Attribute)

def lookOf (isRoot : Bool) (h : Head) (children : List Node) : Look :=
  ⟨tagOf h, select h isRoot, needsPlaceholder h children⟩

mutual
def draw (isRoot : Bool) : Node → Drawing
  | .element h children => .element (lookOf select isRoot h children) (drawForest false children)
  | .text content isExpression => .text content isExpression
  | .fragment children => .fragment (drawForest isRoot children)
  | .guarded guard child => .guarded guard (draw isRoot child)
  | .slot _ => .slot
  | .foreign _ => .fragment []
def drawForest (isRoot : Bool) : List Node → List Drawing
  | [] => []
  | n :: ns => draw isRoot n :: drawForest (isRoot && !hasElement n) ns
end

/-- The looks of elements in document order, the first of which is the root. -/
def looksFrom (isRoot : Bool) : List (Head × List Node) → List Look
  | [] => []
  | e :: es => lookOf select isRoot e.1 e.2 :: looksFrom false es

end Draw

def element? : Node → Option (Head × List Node)
  | .element h children => some (h, children)
  | _ => none

def elementsOf (nodes : List Node) : List (Head × List Node) :=
  (Node.preorderList nodes).filterMap element?

/-! ## The elements of a drawing -/

theorem elementsOf_cons (n : Node) (ns : List Node) :
    elementsOf (n :: ns) = elementsOf [n] ++ elementsOf ns := by
  simp [elementsOf, Node.preorderList]

theorem elementsOf_element (h : Head) (children : List Node) :
    elementsOf [.element h children] = (h, children) :: elementsOf children := by
  simp [elementsOf, Node.preorderList, Node.preorder, element?]

theorem elementsOf_fragment (children : List Node) :
    elementsOf [.fragment children] = elementsOf children := by
  rw [elementsOf, Node.preorderList, Node.preorder, Node.preorderList, List.append_nil,
    List.filterMap_cons_none rfl, elementsOf]

theorem elementsOf_guarded (guard : String) (child : Node) :
    elementsOf [.guarded guard child] = elementsOf [child] := by
  rw [elementsOf, Node.preorderList, Node.preorder, Node.preorderList, List.append_nil,
    List.filterMap_cons_none rfl, elementsOf, Node.preorderList, Node.preorderList, List.append_nil]

mutual
theorem hasElement_eq : ∀ n : Node, hasElement n = !(elementsOf [n]).isEmpty
  | .element h children => by
    rw [hasElement, elementsOf_element]
    rfl
  | .text _ _ => rfl
  | .fragment children => by rw [hasElement, elementsOf_fragment, anyElement_eq children]
  | .guarded guard child => by rw [hasElement, elementsOf_guarded, hasElement_eq child]
  | .slot _ => rfl
  | .foreign _ => rfl
theorem anyElement_eq : ∀ ns : List Node, anyElement ns = !(elementsOf ns).isEmpty
  | [] => rfl
  | n :: ns => by
    rw [anyElement, elementsOf_cons n ns, hasElement_eq n, anyElement_eq ns]
    cases elementsOf [n] <;> rfl
end

section Draw

variable (select : Head → Bool → List Attribute)

theorem looksFrom_append (isRoot : Bool) (es fs : List (Head × List Node)) :
    looksFrom select isRoot (es ++ fs) = looksFrom select isRoot es ++ looksFrom select (isRoot && es.isEmpty) fs := by
  cases es with
  | nil => simp [looksFrom]
  | cons e es =>
    have later : ∀ es,
        looksFrom select false (es ++ fs) = looksFrom select false es ++ looksFrom select false fs := by
      intro es
      induction es with
      | nil => rfl
      | cons e es ih => rw [List.cons_append, looksFrom, looksFrom, ih, List.cons_append]
    rw [List.cons_append, looksFrom, looksFrom, later, List.isEmpty_cons, Bool.and_false, List.cons_append]

-- the root is the first element, so what comes behind a node can hold it only if the node holds none
mutual
theorem looks_draw : ∀ (n : Node) (isRoot : Bool),
    (draw select isRoot n).looks = looksFrom select isRoot (elementsOf [n])
  | .element h children, isRoot => by
    rw [draw, Drawing.looks, looksIn_drawForest children false, elementsOf_element, looksFrom]
  | .text _ _, isRoot => by
    rw [draw, Drawing.looks]
    rfl
  | .fragment children, isRoot => by
    rw [draw, Drawing.looks, looksIn_drawForest children isRoot, elementsOf_fragment]
  | .guarded guard child, isRoot => by
    rw [draw, Drawing.looks, looks_draw child isRoot, elementsOf_guarded]
  | .slot _, isRoot => by
    rw [draw, Drawing.looks]
    rfl
  | .foreign _, isRoot => by
    rw [draw, Drawing.looks]
    rfl
theorem looksIn_drawForest : ∀ (ns : List Node) (isRoot : Bool),
    looksIn (drawForest select isRoot ns) = looksFrom select isRoot (elementsOf ns)
  | [], isRoot => by
    rw [drawForest, looksIn]
    rfl
  | n :: ns, isRoot => by
    rw [drawForest, looksIn, looks_draw n isRoot, looksIn_drawForest ns, elementsOf_cons n ns,
      looksFrom_append, hasElement_eq, Bool.not_not]
end

theorem isEmpty_drawForest (isRoot : Bool) (ns : List Node) :
    (drawForest select isRoot ns).isEmpty = ns.isEmpty := by
  cases ns with
  | nil =>
    rw [drawForest]
    rfl
  | cons n ns => rw [drawForest, List.isEmpty_cons, List.isEmpty_cons]

end Draw

/-! ## Writing a drawing -/

theorem tagOf_name (h : Head) : (tagOf h).name = h.tag := by
  rw [tagOf]
  split <;> rfl

namespace Svelte

open Recast.Generate.Svelte
open Recast.ClassExpr (stripPropsAccess)

def tagText : Tag → String
  | .native name => name
  | .dynamic _ => "svelte:component"

/-- The attribute that looks a component up. -/
def lookup : Tag → List String
  | .native _ => []
  | .dynamic name => ["this=" ++ braced name]

/-- The texts of an attribute. Planned attributes are static, or values, or listen to an event. -/
inductive Spells (runes : Bool) : Trait → String → Prop
  | classValue (code : String) : Spells runes ⟨.classes, classKey⟩ ("class=" ++ braced code)
  | classText (text : String) : Spells runes ⟨.classes, classKey⟩ ("class=\"" ++ text ++ "\"")
  | static (name value : String) : Spells runes ⟨.static, name⟩ (name ++ "=\"" ++ value ++ "\"")
  | expression (name code : String) : Spells runes ⟨.expression, name⟩ (name ++ "=" ++ braced code)
  | plannedText (name value : String) : Spells runes ⟨.planned, name⟩ (name ++ "=\"" ++ value ++ "\"")
  | plannedValue (name code : String) : Spells runes ⟨.planned, name⟩ (name ++ "=" ++ braced code)
  | plannedEvent (name code : String) :
      Spells runes ⟨.planned, name⟩ ((if runes then "on" else "on:") ++ eventName name ++ "=" ++ braced code)
  | ref (code : String) : Spells runes ⟨.ref, refKey⟩ ("bind:this=" ++ braced code)
  | event (name code : String) :
      Spells runes ⟨.event, name⟩ ((if runes then "on" else "on:") ++ name ++ "=" ++ braced code)
  | spread : Spells runes ⟨.spread, spreadKey⟩ (braced ("..." ++ if runes then "restProps" else "$$restProps"))

variable (s : Setting)

theorem spells_attributeText (a : Attribute) : Spells s.runes (traitOf a) (attributeText s a) := by
  cases a with
  | classExpression code => exact .classValue _
  | classText text => exact .classText text
  | static name value => exact .static name value
  | expression name code => exact .expression name _
  | gained g =>
    obtain ⟨name, value⟩ := g
    cases value with
    | static text => exact .plannedText name text
    | «variable» _ => exact .plannedValue name _
    | prop _ => exact .plannedValue name _
    | event _ => exact .plannedEvent name _
  | ref code => exact .ref _
  | event name code => exact .event name _
  | spread => exact .spread

mutual
def write : Drawing → String
  | .element look children =>
    flatElement (openingTag (tagText look.tag) (lookup look.tag ++ look.attributes.map (attributeText s)))
      (tagText look.tag) (if look.showsCallers then s.placeholder else writeForest children)
      (isVoidTag look.tag.name)
  | .text content isExpression => textSpelling content isExpression
  | .fragment children => writeForest children
  | .guarded guard child =>
    "\x7b#if " ++ stripPropsAccess guard ++ "\x7d" ++ write child ++ "\x7b/if\x7d"
  | .slot => s.placeholder
def writeForest : List Drawing → String
  | [] => ""
  | d :: ds => write d ++ writeForest ds
end

theorem opening_eq (h : Head) (isRoot : Bool) :
    opening s h isRoot = openingTag (tagText (tagOf h))
      (lookup (tagOf h) ++ (attributesOf s.component s.metadata h isRoot).map (attributeText s)) := by
  rw [opening, tagName, tagOf]
  cases h.isWrappedPrimitive <;> rfl

theorem tagName_eq (h : Head) : tagName h = tagText (tagOf h) := by
  rw [tagName, tagOf]
  cases h.isWrappedPrimitive <;> rfl

mutual
theorem flatNode_eq : ∀ (n : Node) (isRoot : Bool),
    flatNode s isRoot n = write s (draw (attributesOf s.component s.metadata) isRoot n)
  | .element h children, isRoot => by
    rw [flatNode, draw, write, flatForest_eq children false, opening_eq, tagName_eq, lookOf, tagOf_name,
      Head.isVoid]
  | .text _ _, isRoot => by rw [flatNode, draw, write]
  | .fragment children, isRoot => by rw [flatNode, draw, write, flatForest_eq children isRoot]
  | .guarded guard child, isRoot => by rw [flatNode, draw, write, flatNode_eq child isRoot]
  | .slot _, isRoot => by rw [flatNode, draw, write]
  | .foreign _, isRoot => by rw [flatNode, draw, write, writeForest]
theorem flatForest_eq : ∀ (ns : List Node) (isRoot : Bool),
    flatForest s isRoot ns = writeForest s (drawForest (attributesOf s.component s.metadata) isRoot ns)
  | [], isRoot => by rw [flatForest, drawForest, writeForest]
  | n :: ns, isRoot => by
    rw [flatForest, drawForest, writeForest, flatNode_eq n isRoot, flatForest_eq ns]
end

end Svelte

namespace Vue

open Recast.Generate.Vue

def tagText : Tag → String
  | .native name => name
  | .dynamic _ => "component"

def lookup : Tag → List String
  | .native _ => []
  | .dynamic name => [":is=\"" ++ name ++ "\""]

inductive Spells : Trait → String → Prop
  | classValue (code : String) : Spells ⟨.classes, classKey⟩ (":class=\"" ++ code ++ "\"")
  | classText (text : String) : Spells ⟨.classes, classKey⟩ ("class=\"" ++ text ++ "\"")
  | static (name value : String) : Spells ⟨.static, name⟩ (name ++ "=\"" ++ value ++ "\"")
  | expression (name code : String) : Spells ⟨.expression, name⟩ (":" ++ name ++ "=" ++ ("\"" ++ code ++ "\""))
  | plannedText (name value : String) : Spells ⟨.planned, name⟩ (name ++ "=\"" ++ value ++ "\"")
  | plannedValue (name code : String) : Spells ⟨.planned, name⟩ (":" ++ name ++ "=\"" ++ code ++ "\"")
  | plannedEvent (name code : String) : Spells ⟨.planned, name⟩ ("@" ++ eventName name ++ "=\"" ++ code ++ "\"")
  | ref (code : String) : Spells ⟨.ref, refKey⟩ ("ref=\"" ++ code ++ "\"")
  | event (name code : String) : Spells ⟨.event, name⟩ ("@" ++ name ++ "=" ++ ("\"" ++ code ++ "\""))
  | spread : Spells ⟨.spread, spreadKey⟩ "v-bind=\"$attrs\""

variable (s : Setting)

theorem spells_attributeText (a : Attribute) : Spells (traitOf a) (attributeText s a) := by
  cases a with
  | classExpression code => exact .classValue _
  | classText text => exact .classText text
  | static name value => exact .static name value
  | expression name code => exact .expression name _
  | gained g =>
    obtain ⟨name, value⟩ := g
    cases value with
    | static text => exact .plannedText name text
    | «variable» _ => exact .plannedValue name _
    | prop _ => exact .plannedValue name _
    | event _ => exact .plannedEvent name _
  | ref code => exact .ref _
  | event name code => exact .event name _
  | spread => exact .spread

def writeTagged (directive : Option String) (look : Look) (children : List Drawing) (inside : String) :
    String :=
  flatElement
    (openingTag (tagText look.tag)
      (lookup look.tag ++ directive.toList ++ look.attributes.map (attributeText s)))
    (tagText look.tag) (if look.showsCallers then placeholder else inside)
    (isVoidTag look.tag.name || (slotlessTags.contains look.tag.name && children.isEmpty))

mutual
def write : Drawing → String
  | .element look children => writeTagged s none look children (writeForest children)
  | .text content isExpression => textSpelling s content isExpression
  | .fragment children => writeForest children
  | .guarded guard (.element look children) =>
    writeTagged s (some (guardDirective s guard)) look children (writeForest children)
  | .guarded guard child => flatWrapped (guardDirective s guard) (write child)
  | .slot => placeholder
def writeForest : List Drawing → String
  | [] => ""
  | d :: ds => write d ++ writeForest ds
end

theorem flatTagged_eq (isRoot : Bool) (directive : Option String) (h : Head) (children : List Node)
    (inside : String) :
    flatTagged s isRoot directive h children inside =
      writeTagged s directive (lookOf (attributesOf s.component s.metadata) isRoot h children)
        (drawForest (attributesOf s.component s.metadata) false children) inside := by
  rw [flatTagged, writeTagged, isEmpty_drawForest, lookOf, tagOf_name, opening, tagName, closesItself,
    Head.isVoid, tagOf]
  cases h.isWrappedPrimitive <;> rfl

theorem draw_ne_element {select : Head → Bool → List Attribute} {isRoot : Bool} {n : Node}
    (plain : ∀ h children, n = .element h children → False) :
    ∀ look children, draw select isRoot n = .element look children → False := by
  intro look children same
  cases n with
  | element h children => exact plain h children rfl
  | _ => simp [draw] at same

mutual
theorem flatNode_eq : ∀ (n : Node) (isRoot : Bool),
    flatNode s isRoot n = write s (draw (attributesOf s.component s.metadata) isRoot n)
  | .element h children, isRoot => by
    rw [flatNode, draw, write, flatForest_eq children false, flatTagged_eq]
  | .text _ _, isRoot => by rw [flatNode, draw, write]
  | .fragment children, isRoot => by rw [flatNode, draw, write, flatForest_eq children isRoot]
  | .guarded guard child, isRoot => by
    by_cases isElement : ∃ h children, child = .element h children
    · obtain ⟨h, children, rfl⟩ := isElement
      rw [flatNode, draw, draw, write, flatForest_eq children false, flatTagged_eq]
    · have plain : ∀ h children, child = .element h children → False :=
        fun h children same => isElement ⟨h, children, same⟩
      rw [flatNode, draw, write, flatNode_eq child isRoot]
      · exact draw_ne_element plain
      · exact plain
  | .slot _, isRoot => by rw [flatNode, draw, write]
  | .foreign _, isRoot => by rw [flatNode, draw, write, writeForest]
theorem flatForest_eq : ∀ (ns : List Node) (isRoot : Bool),
    flatForest s isRoot ns = writeForest s (drawForest (attributesOf s.component s.metadata) isRoot ns)
  | [], isRoot => by rw [flatForest, drawForest, writeForest]
  | n :: ns, isRoot => by
    rw [flatForest, drawForest, writeForest, flatNode_eq n isRoot, flatForest_eq ns]
end

end Vue

/-- A drawing that both renderers write for a forest. -/
structure DrawnByBoth (c : Component) (m : Metadata) (runes : Bool) (forest : Forest)
    (drawing : List Drawing) : Prop where
  /-- The elements are those of the forest in document order, the first of them as the root, and have the
  attributes that Svelte markup is given. -/
  svelteLooks : looksIn drawing = looksFrom (Generate.Svelte.attributesOf c m) true (elementsOf forest.nodes)
  /-- They have the attributes that a template is given, too. -/
  vueLooks : looksIn drawing = looksFrom (Generate.Vue.attributesOf c m) true (elementsOf forest.nodes)
  svelte : ∃ text, Generate.Svelte.markup ⟨c, m, runes⟩ forest.nodes = .ok text ∧
    ink text = ink (Svelte.writeForest ⟨c, m, runes⟩ drawing)
  vue : ∃ text, Generate.Vue.template ⟨c, m⟩ forest.nodes = .ok text ∧
    ink text = ink (Vue.writeForest ⟨c, m⟩ drawing)
  /-- Each attribute is spelled as its kind and name ask. -/
  spelled : ∀ look ∈ looksIn drawing, ∀ a ∈ look.attributes,
    Svelte.Spells runes (traitOf a) (Generate.Svelte.attributeText ⟨c, m, runes⟩ a) ∧
    Vue.Spells (traitOf a) (Generate.Vue.attributeText ⟨c, m⟩ a)

theorem drawnByBoth_drawForest (c : Component) (m : Metadata) (runes : Bool) (forest : Forest) :
    DrawnByBoth c m runes forest (drawForest (Generate.Svelte.attributesOf c m) true forest.nodes) := by
  obtain ⟨nodes, sound⟩ := forest
  have same : Generate.Vue.attributesOf c m = Generate.Svelte.attributesOf c m :=
    funext fun h => funext fun isRoot => Generate.Vue.attributesOf_eq c m h isRoot
  refine ⟨looksIn_drawForest _ nodes true, ?_, ?_, ?_, ?_⟩
  · rw [same]
    exact looksIn_drawForest _ nodes true
  · rw [← Svelte.flatForest_eq ⟨c, m, runes⟩ nodes true]
    exact Svelte.markup_ink ⟨c, m, runes⟩ sound
  · rw [← same, ← Vue.flatForest_eq ⟨c, m⟩ nodes true]
    exact Vue.template_ink ⟨c, m⟩ sound
  · intro look _ a _
    exact ⟨Svelte.spells_attributeText ⟨c, m, runes⟩ a, Vue.spells_attributeText ⟨c, m⟩ a⟩

/-- The renderers agree on the tag, the attributes and the placeholder of every element. -/
theorem renderers_agree (c : Component) (m : Metadata) (runes : Bool) (forest : Forest) :
    ∃ drawing, DrawnByBoth c m runes forest drawing :=
  ⟨_, drawnByBoth_drawForest c m runes forest⟩

/-- A switch whose root comes behind text and under a guard, with a bound and a static class, and whose
thumb selects on the state. -/
def switchForest : Forest where
  nodes := [
    .text "Airplane mode" false,
    .guarded "props.shown" (.element
      { tag := "SwitchPrimitive.Root"
        attributes := [("class", "peer"), ("id", "mode")]
        bindings := [("class", ⟨"cn(className)", .expression⟩), ("onFocus", ⟨"focus", .event⟩),
          ("ref", ⟨"ref", .expression⟩)] }
      [.element
        { tag := "span", attributes := [("class", "data-[state=checked]:block")],
          bindings := [(spreadKey, ⟨"props", .spread⟩)] } []]),
    .element { tag := "input", bindings := [(spreadKey, ⟨"props", .spread⟩)] } []]
  sound := by decide +kernel

def switchComponent : Component :=
  { name := "Switch", props := [{ name := "checked" }, { name := "onCheckedChange" }] }

def switchMetadata : Metadata := { statePattern := StatePattern.defaults.head? }

theorem renderers_agree_switch :
    ∃ drawing, DrawnByBoth switchComponent switchMetadata false switchForest drawing ∧
      (looksIn drawing).map (fun look => (look.tag, look.attributes.map traitOf, look.showsCallers)) = [
        (.dynamic "SwitchPrimitive.Root", [⟨.classes, "class"⟩, ⟨.static, "id"⟩, ⟨.planned, "type"⟩,
          ⟨.planned, "role"⟩, ⟨.planned, "aria-checked"⟩, ⟨.planned, "data-state"⟩,
          ⟨.planned, "onClick"⟩, ⟨.ref, "ref"⟩, ⟨.event, "focus"⟩], false),
        (.native "span", [⟨.classes, "class"⟩, ⟨.planned, "data-state"⟩, ⟨.spread, "..."⟩], true),
        (.native "input", [⟨.spread, "..."⟩], false)] := by
  obtain ⟨drawing, drawn⟩ := renderers_agree switchComponent switchMetadata false switchForest
  refine ⟨drawing, drawn, ?_⟩
  rw [drawn.svelteLooks]
  decide +kernel

end Recast.Layout
