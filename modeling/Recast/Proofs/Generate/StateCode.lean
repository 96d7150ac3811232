import Recast.Proofs.Generate.Binding
import Recast.Proofs.Generate.Carried
import Recast.Proofs.Layout.Gained

/-!
# State code

What a component gains for its state, in its markup and in its script, refers to props, to the label of
the state, to the function that changes it and, in Vue, to an event. `state_code_closed` says that the
script declares all of these, each under the name that it is referred to by.
-/

set_option autoImplicit false

namespace Recast.Generate

open Recast.Layout Recast.Markup Recast.Text

/-! ## References -/

/-- What state code refers to. -/
inductive Reference where
  | label (name : String)
  | handler (name : String)
  /-- A prop by its variable. -/
  | «local» (prop var : String)
  /-- A prop by its public name, in a template. -/
  | «public» (prop : String)
  /-- A prop by its public name, in a script. -/
  | member (prop : String)
  | event (name : String)
  deriving DecidableEq, Repr

def Reference.spelling : Reference → String
  | label name => name
  | handler name => name
  | «local» _ var => var
  | «public» prop => prop
  | member prop => "props." ++ prop
  | event name => "emit('" ++ name ++ "'"

/-- Code is cut into references and the texts between them. -/
inductive Part where
  | text (text : String)
  | refer (reference : Reference)
  deriving DecidableEq, Repr

def Part.spelling : Part → String
  | text t => t
  | refer r => r.spelling

def spelled : List Part → String
  | [] => ""
  | part :: parts => part.spelling ++ spelled parts

section Parts

variable (target : Target) (c : Component)

def markupProp (name : String) : Part :=
  match target with
  | .svelte => .refer (.local name (localName c name))
  | .vue => .refer (.public name)

def scriptProp (name : String) : Part :=
  match target with
  | .svelte => .refer (.local name (localName c name))
  | .vue => .refer (.member name)

def valuePart : GainedValue → Part
  | .static text => .text text
  | .variable name => .refer (.label name)
  | .prop name => markupProp target c name
  | .event handler => .refer (.handler handler)

/-- An attribute that an element gains. -/
def attributeParts (runes : Bool) (g : Gained) : List Part :=
  let around := match target, g.value with
    | _, .static _ => (g.name ++ "=\"", "\"")
    | .svelte, .event _ => ((if runes then "on" else "on:") ++ Svelte.eventName g.name ++ "=\x7b", "\x7d")
    | .svelte, _ => (g.name ++ "=\x7b", "\x7d")
    | .vue, .event _ => ("@" ++ Vue.eventName g.name ++ "=\"", "\"")
    | .vue, _ => (":" ++ g.name ++ "=\"", "\"")
  [.text around.1, valuePart target c g.value, .text around.2]

def labelParts (runes : Bool) (p : StatePattern) : List Part :=
  match target with
  | .svelte =>
    [.text (if runes then "const dataState = $derived(" else "$: dataState = "), scriptProp target c p.valueProp,
      .text (" ? \"" ++ p.labels.whenTrue ++ "\" : \"" ++ p.labels.whenFalse ++ "\"" ++ if runes then ");" else ";")]
  | .vue =>
    [.text "const dataState = computed(() => (", scriptProp target c p.valueProp,
      .text (" ? '" ++ p.labels.whenTrue ++ "' : '" ++ p.labels.whenFalse ++ "'));")]

def toggleParts (p : StatePattern) : List Part :=
  let value := scriptProp target c p.valueProp
  let disabled := scriptProp target c "disabled"
  match target with
  | .svelte =>
    [.text "function toggle() \x7b\n"]
      ++ (if c.hasProp "disabled" then [.text "  if (", disabled, .text ") return;\n"] else [])
      ++ [.text "  ", value, .text " = !", value, .text ";\n  ", scriptProp target c p.changeProp, .text "?.(",
        value, .text ");\n\x7d"]
  | .vue =>
    let emit := [.refer (.event p.emitEvent), .text ", !", value, .text ");"]
    [.text "function toggle() \x7b\n"]
      ++ (if c.hasProp "disabled" then
          [.text "  if (!", disabled, .text ") \x7b\n    "] ++ emit ++ [.text "\n  \x7d"]
        else [.text "  "] ++ emit)
      ++ [.text "\n\x7d"]

end Parts

/-! ## Declarations -/

/-- A declaration in a script. -/
def writtenDeclaration (o : Options) (d : Declaration) : String :=
  match o.target with
  | .svelte => Svelte.declarationText d o.svelte.runes o.typescript
  | .vue => d.code

/-- A generated component has a declaration, and its script shows it. -/
def Generated.Writes (g : Generated) (o : Options) (d : Declaration) : Prop :=
  d ∈ g.declarations ∧ Shown (writtenDeclaration o d) g.declarationBlock

/-- A declaration introduces the variable of a prop: by an entry of the pattern that takes the props
apart, or by statements of its own. -/
inductive Svelte.Introduces (o : Options) (d : Declaration) (prop var : String) : Prop
  | runes {entries : List String} (default : String) {back : String} :
      writtenDeclaration o d = "let \x7b\n" ++ join ",\n" entries ++ "\n\x7d" ++ back →
      (indent ++ (if var = prop then prop else prop ++ ": " ++ var) ++ default) ∈ entries → Introduces o d prop var
  | exported {lines : List String} (back : String) : writtenDeclaration o d = join "\n" lines → var = prop →
      ("export let " ++ prop ++ back) ∈ lines → Introduces o d prop var
  | renamed {lines : List String} (back : String) : writtenDeclaration o d = join "\n" lines → var ≠ prop →
      ("let " ++ var ++ back) ∈ lines → ("export \x7b " ++ var ++ " as " ++ prop ++ " \x7d;") ∈ lines →
      Introduces o d prop var

/-- A declaration of events has one of them. -/
inductive Vue.Emits (d : Declaration) (event : String) : Prop
  | typed {lines : List String} (type : String) :
      d.code = "const emit = defineEmits<\x7b\n" ++ join "\n" lines ++ "\n\x7d>();" →
      (indent ++ "'" ++ event ++ "': [value: " ++ type ++ "];") ∈ lines → Emits d event
  | listed {names : List String} : d.code = "const emit = defineEmits([" ++ join ", " names ++ "]);" →
      ("'" ++ event ++ "'") ∈ names → Emits d event

/-- A component has a prop: by a member of the type of its props, or by an entry of the object that
declares them. -/
inductive Vue.Lists (g : Generated) (o : Options) (d : Declaration) (prop : String) : Prop
  | typed {t : Declaration} {members : List String} {mark type : String} : o.typescript = true →
      g.Writes o t → t.kind = .propType → t.code = "interface Props \x7b\n" ++ join "\n" members ++ "\n\x7d" →
      (indent ++ prop ++ mark ++ ": " ++ type ++ ";") ∈ members → mark ∈ ["", "?"] →
      (d.code = "const props = defineProps<Props>();" ∨
        ∃ back, d.code = "const props = withDefaults(defineProps<Props>(), \x7b\n" ++ back) →
      Lists g o d prop
  | listed {entries : List String} (back : String) :
      d.code = "const props = defineProps(\x7b\n" ++ join "\n" entries ++ "\n\x7d);" →
      (indent ++ prop ++ ": \x7b type: " ++ back) ∈ entries → Lists g o d prop

/-- A script declares what is referred to. -/
inductive Generated.Declares (g : Generated) (o : Options) : Reference → Prop
  | label {d : Declaration} : g.Writes o d → d.kind = .derived → g.Declares o (.label d.name)
  | handler {d : Declaration} : g.Writes o d → d.kind = .handler → g.Declares o (.handler d.name)
  | «local» {d : Declaration} {prop var : String} : o.target = .svelte → g.Writes o d → d.kind = .propBinding →
      d.Binds prop var → Svelte.Introduces o d prop var → g.Declares o (.local prop var)
  | «public» {d : Declaration} {prop : String} : o.target = .vue → g.Writes o d → d.kind = .propBinding →
      d.Binds prop prop → Vue.Lists g o d prop → g.Declares o (.public prop)
  | member {d : Declaration} {prop : String} : o.target = .vue → g.Writes o d → d.kind = .propBinding →
      d.Binds prop prop → Vue.Lists g o d prop → g.Declares o (.member prop)
  | event {d : Declaration} {name : String} : o.target = .vue → g.Writes o d → d.kind = .emits →
      Vue.Emits d name → g.Declares o (.event name)

/-- Whatever code refers to is declared. -/
def Generated.Closes (g : Generated) (o : Options) (parts : List Part) : Prop :=
  ∀ r, .refer r ∈ parts → g.Declares o r

def writtenAttribute (c : Component) (o : Options) (a : Attribute) : String :=
  match o.target with
  | .svelte => Svelte.attributeText ⟨c, metadataOf c, o.svelte.runes⟩ a
  | .vue => Vue.attributeText ⟨c, metadataOf c⟩ a

def writtenDrawing (c : Component) (o : Options) (drawing : List Drawing) : String :=
  match o.target with
  | .svelte => Layout.Svelte.writeForest ⟨c, metadataOf c, o.svelte.runes⟩ drawing
  | .vue => "<template>\n" ++ Layout.Vue.writeForest ⟨c, metadataOf c⟩ drawing ++ "\n</template>"

/-- The state code of a component refers only to what its script declares. -/
structure StateClosed (c : Component) (o : Options) (looks : List Look) (g : Generated) : Prop where
  markup : ∀ look ∈ looks, ∀ a ∈ look.gained,
    writtenAttribute c o (.gained a) = spelled (attributeParts o.target c o.svelte.runes a) ∧
      g.Closes o (attributeParts o.target c o.svelte.runes a)
  label : ∀ d ∈ g.declarations, d.kind = .derived → ∃ p, (metadataOf c).statePattern = some p ∧
    writtenDeclaration o d = spelled (labelParts o.target c o.svelte.runes p) ∧
      g.Closes o (labelParts o.target c o.svelte.runes p)
  handler : ∀ d ∈ g.declarations, d.kind = .handler → ∃ p, (metadataOf c).statePattern = some p ∧
    writtenDeclaration o d = spelled (toggleParts o.target c p) ∧ g.Closes o (toggleParts o.target c p)

/-! ## Spelling -/

theorem writtenAttribute_gained (c : Component) (o : Options) (a : Gained) :
    writtenAttribute c o (.gained a) = spelled (attributeParts o.target c o.svelte.runes a) := by
  obtain ⟨name, value⟩ := a
  have brace : "=\x7b" = "=" ++ "\x7b" := rfl
  rw [writtenAttribute]
  cases o.target <;> cases value <;>
    simp [-String.reduceAppend, brace, Svelte.attributeText, Svelte.gainedText, Svelte.braced,
      Svelte.eventAttribute, Vue.attributeText, Vue.gainedText, attributeParts, valuePart, markupProp, spelled,
      Part.spelling, Reference.spelling, String.append_assoc]

theorem Svelte.spelled_label (c : Component) (p : StatePattern) (runes typescript : Bool) :
    Svelte.declarationText ⟨.derived, stateName, "", Svelte.stateLabel c p, none, []⟩ runes typescript =
      spelled (labelParts .svelte c runes p) := by
  cases runes <;>
    simp [Svelte.declarationText, Svelte.stateLabel, stateName, labelParts, scriptProp, spelled, Part.spelling,
      Reference.spelling, String.append_assoc]

theorem Svelte.spelled_toggle (c : Component) (p : StatePattern) :
    Svelte.toggle c p = spelled (toggleParts .svelte c p) := by
  have start : "function toggle() \x7b\n" = "function " ++ "toggle" ++ "() \x7b" ++ "\n" := rfl
  have guard : "  if (" = "  " ++ "if (" ∧ ") return;\n" = ") return;" ++ "\n" := ⟨rfl, rfl⟩
  have change : ";\n  " = ";" ++ "\n" ++ "  " := rfl
  have close : ");\n\x7d" = ");" ++ "\n" ++ "\x7d" := rfl
  cases disabled : c.hasProp "disabled" <;>
    simp [-String.reduceAppend, start, guard, change, close, Svelte.toggle, toggleName, disabled, toggleParts,
      scriptProp, spelled, Part.spelling, Reference.spelling, join, indent, String.append_assoc]

theorem Vue.spelled_label (c : Component) (p : StatePattern) (runes : Bool) :
    (Vue.stateDeclaration p).code = spelled (labelParts .vue c runes p) := by
  have start : "const dataState = computed(() => (" ++ "props." =
      "const " ++ "dataState" ++ " = computed(() => (props." := rfl
  simp [-String.reduceAppend, ← start, Vue.stateDeclaration, stateName, labelParts, scriptProp, spelled,
    Part.spelling, Reference.spelling, String.append_assoc]

theorem Vue.spelled_toggle (c : Component) (p : StatePattern) :
    (Vue.toggle c p).code = spelled (toggleParts .vue c p) := by
  have start : "function toggle() \x7b\n" = "function " ++ "toggle" ++ "() \x7b\n" := rfl
  have emit : "', !props." = "'" ++ ", !" ++ "props." := rfl
  have guard : "if (!props.disabled) \x7b\n" = "if (!" ++ "props." ++ "disabled" ++ ") \x7b\n" := rfl
  have opening : "  if (!" = "  " ++ "if (!" ∧ ") \x7b\n    " = ") \x7b\n" ++ "  " ++ "  " := ⟨rfl, rfl⟩
  have close : "\n  \x7d" = "\n" ++ "  " ++ "\x7d" := rfl
  cases disabled : c.hasProp "disabled" <;>
    simp [-String.reduceAppend, start, emit, guard, opening, close, Vue.toggle, toggleName, disabled, toggleParts,
      scriptProp, spelled, Part.spelling, Reference.spelling, indent, String.append_assoc]

/-! ## Patterns -/

/-- A component with the facts that it is given by default. -/
def described (c : Component) (shared : Option Shared) : Component :=
  { c with metadata := some (Metadata.ofComponent c shared) }

/-- A pattern whose props are props of a component, each listed under its own name, and whose change is
reported as an event of its value. -/
structure Suits (c : Component) (p : StatePattern) : Prop where
  value : p.valueProp ∈ c.props.map (·.name)
  change : p.changeProp ∈ c.props.map (·.name)
  listed : isListed p.valueProp = true ∧ isListed p.changeProp = true
  kept : isChangeHandler p.valueProp = false
  reports : changedValue? p.changeProp = some p.valueProp

theorem suits_described {c : Component} {shared : Option Shared} {p : StatePattern}
    (found : (metadataOf (described c shared)).statePattern = some p) : Suits (described c shared) p := by
  rw [metadataOf, described, Option.getD_some, Metadata.ofComponent] at found
  dsimp only at found
  have known : p ∈ StatePattern.defaults := List.mem_of_find?_eq_some found
  have names : isListed p.valueProp = true ∧ isListed p.changeProp = true ∧ isChangeHandler p.valueProp = false ∧
      changedValue? p.changeProp = some p.valueProp := by
    have all : ∀ p ∈ StatePattern.defaults, isListed p.valueProp = true ∧ isListed p.changeProp = true ∧
        isChangeHandler p.valueProp = false ∧ changedValue? p.changeProp = some p.valueProp := by decide
    exact all p known
  have matched := List.find?_some found
  rw [Bool.and_eq_true, StatePattern.isMatch, Bool.and_eq_true] at matched
  obtain ⟨-, value, change⟩ := matched
  have declared : ∀ name, c.props.any (·.name == name) = true → name ∈ (described c shared).props.map (·.name) := by
    intro name has
    simpa [described] using has
  exact ⟨declared _ value, declared _ change, ⟨names.1, names.2.1⟩, names.2.2.1, names.2.2.2⟩

theorem isMatch_of_suits {c : Component} {p : StatePattern} (suits : Suits c p) : p.isMatch c.props = true := by
  have value := suits.value
  have change := suits.change
  simp_all [StatePattern.isMatch]

/-! ## Gains -/

theorem mem_looksFrom {select : Head → Bool → List Attribute} {look : Look} :
    ∀ {elements : List (Head × List Node)} {isRoot : Bool}, look ∈ looksFrom select isRoot elements →
      ∃ isRoot h children, look = lookOf select isRoot h children
  | e :: es, isRoot, member => by
    rw [looksFrom] at member
    rcases List.mem_cons.mp member with rfl | later
    · exact ⟨isRoot, e.1, e.2, rfl⟩
    · exact mem_looksFrom later

/-- Whatever an element gains shows or changes a part of the state. -/
theorem exists_part_of_gained {target : Target} {c : Component} {m : Metadata} {nodes : List Node} {look : Look}
    (listed : look ∈ looksIn (drawForest (attributesFor target c m) true nodes)) {a : Gained}
    (member : a ∈ look.gained) :
    ∃ p h part, m.statePattern = some p ∧ StatePart.attribute? c p h part = some a := by
  rw [looksIn_drawForest] at listed
  obtain ⟨isRoot, h, children, rfl⟩ := mem_looksFrom listed
  rw [gained_lookOf] at member
  cases pattern : m.statePattern with
  | none =>
    rw [gains_stateless c pattern] at member
    cases member
  | some p =>
    cases isRoot with
    | true =>
      obtain ⟨part, -, found⟩ := List.mem_filterMap.mp ((rootGains_supplied pattern h).inOrder.subset member)
      exact ⟨p, h, part, rfl, found⟩
    | false =>
      rcases childGains_follows pattern h with ⟨-, -, same⟩ | ⟨-, same⟩
      · rw [gains, if_neg Bool.false_ne_true, same] at member
        exact ⟨p, h, .state, rfl, by rw [List.mem_singleton.mp member]; rfl⟩
      · rw [gains, if_neg Bool.false_ne_true, same] at member
        cases member

/-- What gained attributes refer to. -/
theorem valuePart_cases {target : Target} {c : Component} {p : StatePattern} {h : Head} {part : StatePart}
    {a : Gained} (found : StatePart.attribute? c p h part = some a) {r : Reference}
    (refers : .refer r = valuePart target c a.value) :
    r = .label stateName ∨ (p.isMatch c.props = true ∧ r = .handler toggleName) ∨
      ∃ prop, (prop = p.valueProp ∨ prop = "disabled" ∧ prop ∈ c.props.map (·.name)) ∧
        .refer r = markupProp target c prop := by
  cases part with
  | type =>
    rw [StatePart.attribute?] at found
    split at found <;> cases found
    cases refers
  | role =>
    rw [StatePart.attribute?] at found
    split at found
    · obtain ⟨text, -, rfl⟩ := Option.map_eq_some_iff.mp found
      cases refers
    · cases found
  | aria =>
    cases found
    exact .inr (.inr ⟨p.valueProp, .inl rfl, refers⟩)
  | state =>
    cases found
    cases refers
    exact .inl rfl
  | disabled =>
    rw [StatePart.attribute?] at found
    split at found
    · rename_i has
      cases found
      exact .inr (.inr ⟨"disabled", .inr ⟨rfl, has⟩, refers⟩)
    · cases found
  | click =>
    rw [StatePart.attribute?] at found
    split at found
    · rename_i both
      cases found
      cases refers
      refine .inr (.inl ⟨?_, rfl⟩)
      simp_all [StatePattern.isMatch]
    · cases found

/-- A prop that state code refers to. Only Svelte calls the handler that callers pass. -/
inductive Needed (target : Target) (c : Component) (p : StatePattern) : String → Prop
  | value : Needed target c p p.valueProp
  | disabled : "disabled" ∈ c.props.map (·.name) → Needed target c p "disabled"
  | change : target = .svelte → Needed target c p p.changeProp

theorem Needed.ordinary {target : Target} {c : Component} {p : StatePattern} (suits : Suits c p) {prop : String}
    (needed : Needed target c p prop) : prop ∈ c.props.map (·.name) ∧ isListed prop = true := by
  cases needed with
  | value => exact ⟨suits.value, suits.listed.1⟩
  | disabled member => exact ⟨member, by decide⟩
  | change => exact ⟨suits.change, suits.listed.2⟩

theorem Needed.kept {c : Component} {p : StatePattern} (suits : Suits c p) {prop : String}
    (needed : Needed .vue c p prop) : isChangeHandler prop = false := by
  cases needed with
  | value => exact suits.kept
  | disabled => decide
  | change other => cases other

/-- A script declares all that state code can refer to. -/
structure Serves (c : Component) (o : Options) (p : StatePattern) (g : Generated) : Prop where
  markup : ∀ prop, Needed o.target c p prop → ∀ r, .refer r = markupProp o.target c prop → g.Declares o r
  script : ∀ prop, Needed o.target c p prop → ∀ r, .refer r = scriptProp o.target c prop → g.Declares o r
  label : g.Declares o (.label stateName)
  handler : g.Declares o (.handler toggleName)
  event : o.target = .vue → g.Declares o (.event p.emitEvent)

namespace Serves

variable {c : Component} {o : Options} {p : StatePattern} {g : Generated}

theorem closes_attribute (serves : Serves c o p g) {h : Head} {part : StatePart} {a : Gained}
    (found : StatePart.attribute? c p h part = some a) (runes : Bool) :
    g.Closes o (attributeParts o.target c runes a) := by
  intro r member
  have refers : .refer r = valuePart o.target c a.value := by
    simpa [attributeParts] using member
  rcases valuePart_cases found refers with rfl | ⟨-, rfl⟩ | ⟨prop, needed, same⟩
  · exact serves.label
  · exact serves.handler
  · refine serves.markup prop ?_ r same
    rcases needed with rfl | ⟨rfl, member⟩
    · exact .value
    · exact .disabled member

theorem closes_label (serves : Serves c o p g) (runes : Bool) : g.Closes o (labelParts o.target c runes p) := by
  intro r member
  refine serves.script p.valueProp .value r ?_
  cases target : o.target <;> (rw [target] at member; simpa [labelParts] using member)

theorem closes_toggle (serves : Serves c o p g) : g.Closes o (toggleParts o.target c p) := by
  have disabled : c.hasProp "disabled" = true → "disabled" ∈ c.props.map (·.name) := by
    intro has
    simpa [Component.hasProp] using has
  have value := serves.script p.valueProp .value
  have guarded : ∀ r, c.hasProp "disabled" = true → .refer r = scriptProp o.target c "disabled" → g.Declares o r :=
    fun r has same => serves.script "disabled" (.disabled (disabled has)) r same
  intro r member
  cases target : o.target with
  | svelte =>
    have change := serves.script p.changeProp (.change target) r
    rw [target] at member value guarded change
    rw [toggleParts] at member
    have cases : .refer r = scriptProp .svelte c p.valueProp ∨ .refer r = scriptProp .svelte c p.changeProp ∨
        (c.hasProp "disabled" = true ∧ .refer r = scriptProp .svelte c "disabled") := by
      cases has : c.hasProp "disabled" <;> simp [has] at member <;> tauto
    rcases cases with same | same | ⟨has, same⟩
    · exact value r same
    · exact change same
    · exact guarded r has same
  | vue =>
    rw [target] at member value guarded
    rw [toggleParts] at member
    have cases : .refer r = scriptProp .vue c p.valueProp ∨ r = .event p.emitEvent ∨
        (c.hasProp "disabled" = true ∧ .refer r = scriptProp .vue c "disabled") := by
      cases has : c.hasProp "disabled" <;> simp [has] at member <;> tauto
    rcases cases with same | rfl | ⟨has, same⟩
    · exact value r same
    · exact serves.event target
    · exact guarded r has same

end Serves

/-! ## Svelte -/

namespace Svelte

theorem shown_script {ds : List Declaration} {d : Declaration} {runes typescript : Bool} (member : d ∈ ds)
    (own : hasSection typescript d = true) :
    Shown (declarationText d runes typescript) (script ds runes typescript) := by
  by_cases empty : declarationText d runes typescript = ""
  · rw [empty]
    exact List.nil_infix
  · have listed : declarationText d runes typescript ∈ sections (sortDeclarations ds) runes typescript := by
      refine List.mem_append_right _ (List.mem_filter.mpr ⟨?_, by simpa using empty⟩)
      exact List.mem_map_of_mem (List.mem_filter.mpr ⟨mem_sortDeclarations.mpr member, own⟩)
    have gap : ink "\n\n" = [] := ink_of_blank (by decide)
    exact (((Shown.join listed (Shown.refl _) gap).of_ink (ink_indentLines _)).behind _).before _

theorem exists_generated {c : Component} (sound : Sound c.root) (o : Options) :
    ∃ g merges, Svelte.generate c o = .ok g ∧
      g.declarations = declarations c c.props (metadataOf c) o merges ∧
      g.declarationBlock = script g.declarations o.svelte.runes o.typescript ∧
      ink g.markupBlock = ink (Layout.Svelte.writeForest ⟨c, metadataOf c, o.svelte.runes⟩
        (drawForest (attributesOf c (metadataOf c)) true (markupOf c (metadataOf c)))) := by
  have nodes := markupOf_sound sound (metadataOf c)
  obtain ⟨text, rendered, same⟩ := Layout.Svelte.markup_ink ⟨c, metadataOf c, o.svelte.runes⟩ nodes
  rw [Layout.Svelte.flatForest_eq] at same
  rw [Svelte.generate, rendered]
  exact ⟨_, _, rfl, rfl, rfl, same⟩

variable {c : Component} {m : Metadata} {o : Options} {merges : Bool} {d : Declaration}

/-- Only the label of a state is derived, and only the function that changes it is a handler. -/
theorem of_state (member : d ∈ declarations c c.props m o merges) (kind : d.kind = .derived ∨ d.kind = .handler) :
    ∃ p, m.statePattern = some p ∧ (d = ⟨.derived, stateName, "", stateLabel c p, none, []⟩ ∨
      d = ⟨.handler, toggleName, toggle c p, "", none, []⟩) := by
  have untyped : ∀ planned elementType, d ∉ if o.typescript then [propTypeOf c m planned elementType] else [] := by
    intro planned elementType listed
    split at listed
    · rw [List.mem_singleton.mp listed] at kind
      rcases kind with kind | kind <;> cases kind
    · cases listed
  rw [declarations, mem_sortDeclarations] at member
  simp only [List.mem_append, List.mem_map, List.mem_filter, Option.mem_toList, List.mem_singleton, untyped,
    or_false] at member
  rcases member with (((((⟨_, -, rfl⟩ | ⟨_, -, rfl⟩) | rfl) | ⟨p, pattern, rfl⟩) | ⟨_, -, rfl⟩) | ⟨_, -, rfl⟩) |
    ⟨p, ⟨pattern, -⟩, rfl⟩
  case inl.inl.inl.inr => exact ⟨p, pattern, .inl rfl⟩
  case inr => exact ⟨p, pattern, .inr rfl⟩
  all_goals rcases kind with kind | kind <;> cases kind

theorem of_derived (member : d ∈ declarations c c.props m o merges) (kind : d.kind = .derived) :
    ∃ p, m.statePattern = some p ∧ d = ⟨.derived, stateName, "", stateLabel c p, none, []⟩ := by
  obtain ⟨p, pattern, rfl | rfl⟩ := of_state member (.inl kind)
  · exact ⟨p, pattern, rfl⟩
  · cases kind

theorem of_handler (member : d ∈ declarations c c.props m o merges) (kind : d.kind = .handler) :
    ∃ p, m.statePattern = some p ∧ d = ⟨.handler, toggleName, toggle c p, "", none, []⟩ := by
  obtain ⟨p, pattern, rfl | rfl⟩ := of_state member (.inr kind)
  · cases kind
  · exact ⟨p, pattern, rfl⟩

/-- A listed prop is bound to the variable that the source calls it by. -/
theorem exists_binding {prop : String} (member : prop ∈ c.props.map (·.name)) (listed : isListed prop = true) :
    ∃ b ∈ bindings c m (plannedProps c.props m), b.rest = false ∧ b.name = prop ∧ b.localName = localName c prop := by
  have ordinary : prop ∉ specialPropNames := by
    intro special
    simp [isListed, special] at listed
  refine (binds_iff c m _ ordinary).mpr (.inr ?_)
  cases found : c.findProp? prop with
  | none =>
    obtain ⟨q, old, called⟩ := List.mem_map.mp member
    exact absurd (beq_iff_eq.mpr called) (List.find?_eq_none.mp found q old)
  | some q =>
    have old := List.mem_of_find?_eq_some found
    have called : q.name = prop := by simpa using List.find?_some found
    refine ⟨q, mem_plannedProps.mpr (.inl ⟨old, called ▸ listed⟩), called, ?_⟩
    rw [localName, found, boundTo, called]
    rfl

theorem introduces (target : o.target = .svelte) (kind : d.kind = .propBinding) {b : PropBinding}
    (member : b ∈ d.bindings) (kept : b.rest = false) (ordinary : b.name ≠ "children") :
    Introduces o d b.name b.localName := by
  cases runes : o.svelte.runes with
  | true =>
    have written : writtenDeclaration o d = runesBindings d o.typescript := by
      simp [writtenDeclaration, target, declarationText, kind, runes]
    rw [runesBindings, String.append_assoc] at written
    refine .runes (if b.bindable then " = $bindable(" ++ b.default.getD "" ++ ")"
      else (b.default.map (" = " ++ ·)).getD "") written ?_
    have entry := List.mem_map_of_mem member (f := fun b => indent ++ runesEntry b)
    have same : runesEntry b = (if b.localName = b.name then b.name else b.name ++ ": " ++ b.localName) ++
        (if b.bindable then " = $bindable(" ++ b.default.getD "" ++ ")" else (b.default.map (" = " ++ ·)).getD "") := by
      rw [runesEntry, kept, if_neg Bool.false_ne_true]
      cases b.bindable with
      | true => simp [String.append_assoc]
      | false => cases b.default <;> simp [String.append_assoc]
    rw [String.append_assoc, ← same]
    exact entry
  | false =>
    have written : writtenDeclaration o d = legacyBindings d o.typescript := by
      simp [writtenDeclaration, target, declarationText, kind, runes]
    rw [legacyBindings] at written
    have entries : ∀ line ∈ legacyEntry o.typescript b, line ∈ d.bindings.flatMap (legacyEntry o.typescript) :=
      fun line found => List.mem_flatMap.mpr ⟨b, member, found⟩
    have skipped : (b.rest || b.name == "children") = false := by simp [kept, ordinary]
    let back := (if o.typescript then ": $$Props[\"" ++ b.name ++ "\"]" else "") ++
      (" = " ++ (b.default.getD "undefined" ++ ";"))
    by_cases same : b.localName = b.name
    · refine .exported back written same (entries _ ?_)
      rw [legacyEntry, skipped, if_neg Bool.false_ne_true, if_pos same]
      simp [back, String.append_assoc]
    · refine .renamed back written same (entries _ ?_) (entries _ ?_)
      · rw [legacyEntry, skipped, if_neg Bool.false_ne_true, if_neg same]
        simp [back, String.append_assoc]
      · rw [legacyEntry, skipped, if_neg Bool.false_ne_true, if_neg same]
        simp

theorem serves {p : StatePattern} {g : Generated} (target : o.target = .svelte) (suits : Suits c p)
    (pattern : m.statePattern = some p) (declared : g.declarations = declarations c c.props m o merges)
    (block : g.declarationBlock = script g.declarations o.svelte.runes o.typescript) : Serves c o p g := by
  have writes : ∀ d ∈ declarations c c.props m o merges, hasSection o.typescript d = true → g.Writes o d := by
    intro d member own
    rw [← declared] at member
    refine ⟨member, ?_⟩
    rw [writtenDeclaration, target, block]
    exact shown_script member own
  have label : g.Writes o ⟨.derived, stateName, "", stateLabel c p, none, []⟩ := by
    refine writes _ (mem_sortDeclarations.mpr ?_) (by simp [hasSection])
    simp [pattern]
  have handler : g.Writes o ⟨.handler, toggleName, toggle c p, "", none, []⟩ := by
    refine writes _ (mem_sortDeclarations.mpr ?_) (by simp [hasSection])
    simp [pattern, isMatch_of_suits suits]
  have bound : g.Writes o ⟨.propBinding, "props", "", "", none, bindings c m (plannedProps c.props m)⟩ := by
    refine writes _ (mem_sortDeclarations.mpr ?_) (by simp [hasSection])
    simp
  have reaches : ∀ prop, Needed o.target c p prop → g.Declares o (.local prop (localName c prop)) := by
    intro prop needed
    obtain ⟨member, listed⟩ := needed.ordinary suits
    obtain ⟨b, bound', kept, rfl, local'⟩ := exists_binding (m := m) member listed
    have ordinary : b.name ≠ "children" := by
      intro same
      rw [same] at listed
      exact absurd listed (by decide)
    rw [← local']
    exact .local target bound rfl ⟨b, bound', kept, rfl, rfl⟩ (introduces target rfl bound' kept ordinary)
  refine ⟨?_, ?_, .label label rfl, .handler handler rfl, ?_⟩
  · intro prop needed r same
    rw [target] at same
    cases same
    exact reaches prop needed
  · intro prop needed r same
    rw [target] at same
    cases same
    exact reaches prop needed
  · intro other
    rw [target] at other
    cases other

end Svelte

/-! ## Vue -/

namespace Vue

theorem shown_script {ds : List Declaration} {d : Declaration} {typescript : Bool} (member : d ∈ ds)
    (own : d.kind ≠ .importing) : Shown d.code (script ds typescript) := by
  by_cases empty : d.code = ""
  · rw [empty]
    exact List.nil_infix
  · have listed : d.code ∈ sections ds := by
      refine List.mem_filter.mpr ⟨List.mem_append_right _ ?_, by simpa using empty⟩
      exact List.mem_map_of_mem (List.mem_filter.mpr ⟨member, by simpa using own⟩)
    have gap : ink "\n\n" = [] := ink_of_blank (by decide)
    exact ((Shown.join listed (Shown.refl _) gap).behind _).before _

theorem exists_generated {c : Component} (sound : Sound c.root) (o : Options) :
    ∃ g merges, Vue.generate c o = .ok g ∧
      g.declarations = declarations c c.props (metadataOf c) o merges ∧
      g.declarationBlock = script g.declarations o.typescript ∧
      ink g.markupBlock = ink ("<template>\n" ++ Layout.Vue.writeForest ⟨c, metadataOf c⟩
        (drawForest (attributesOf c (metadataOf c)) true (markupOf c (metadataOf c))) ++ "\n</template>") := by
  have nodes := markupOf_sound sound (metadataOf c)
  obtain ⟨text, rendered, same⟩ := Layout.Vue.template_ink ⟨c, metadataOf c⟩ nodes
  rw [Layout.Vue.flatForest_eq] at same
  rw [Vue.generate, rendered]
  refine ⟨_, _, rfl, rfl, rfl, ?_⟩
  dsimp only
  rw [ink_append, ink_append, ink_indentLines, same, ← ink_append, ← ink_append]

variable {c : Component} {m : Metadata} {o : Options} {merges : Bool} {d : Declaration}

theorem of_state (member : d ∈ declarations c c.props m o merges) (kind : d.kind = .derived ∨ d.kind = .handler) :
    ∃ p, m.statePattern = some p ∧ (d = stateDeclaration p ∨ d = toggle c p) := by
  rw [declarations, mem_sortDeclarations] at member
  simp only [List.mem_append, List.mem_map, List.mem_filter, Option.mem_toList, List.mem_singleton] at member
  rcases member with ((((((((⟨_, -, rfl⟩ | ⟨_, -, rfl⟩) | typed) | rfl) | emits) | ⟨p, pattern, rfl⟩) |
    ⟨_, -, rfl⟩) | ⟨_, -, rfl⟩) | ⟨_, -, rfl⟩) | ⟨p, ⟨pattern, -⟩, rfl⟩
  case inl.inl.inl.inl.inr => exact ⟨p, pattern, .inl rfl⟩
  case inr => exact ⟨p, pattern, .inr rfl⟩
  case inl.inl.inl.inl.inl.inr =>
    split at emits
    · cases emits
    · rw [List.mem_singleton.mp emits] at kind
      rcases kind with kind | kind <;> cases kind
  case inl.inl.inl.inl.inl.inl.inl.inr =>
    split at typed
    · rw [List.mem_singleton.mp typed] at kind
      rcases kind with kind | kind <;> cases kind
    · cases typed
  all_goals rcases kind with kind | kind <;> cases kind

theorem of_derived (member : d ∈ declarations c c.props m o merges) (kind : d.kind = .derived) :
    ∃ p, m.statePattern = some p ∧ d = stateDeclaration p := by
  obtain ⟨p, pattern, rfl | rfl⟩ := of_state member (.inl kind)
  · exact ⟨p, pattern, rfl⟩
  · cases kind

theorem of_handler (member : d ∈ declarations c c.props m o merges) (kind : d.kind = .handler) :
    ∃ p, m.statePattern = some p ∧ d = toggle c p := by
  obtain ⟨p, pattern, rfl | rfl⟩ := of_state member (.inr kind)
  · cases kind
  · exact ⟨p, pattern, rfl⟩

/-- The props that are declared, apart from the class. -/
def declaredOnes (c : Component) (m : Metadata) : List Property :=
  (plannedProps c.props m).filter (!isChangeHandler ·.name)

theorem lists {g : Generated} {q : Property} (member : q ∈ declaredOnes c m)
    (typed : o.typescript = true → g.Writes o (propTypeOf m (declaredOnes c m) (declaresClass c m))) :
    Lists g o (propBindingOf (bindings m (declaredOnes c m) (declaresClass c m)) o.typescript) q.name := by
  cases typescript : o.typescript with
  | true =>
    have inType := List.mem_append_right (if declaresClass c m then [indent ++ "class?: string;"] else [])
      (List.mem_map_of_mem member (f := fun p =>
        indent ++ p.name ++ (if p.optional then "?" else "") ++ ": " ++ propTypeText m p ++ ";"))
    have filled : (propTypeOf m (declaredOnes c m) (declaresClass c m)).code = _ :=
      if_neg fun empty => by
        rw [List.isEmpty_iff.mp empty] at inType
        cases inType
    have mark : (if q.optional then "?" else "") ∈ ["", "?"] := by split <;> decide
    refine .typed typescript (typed typescript) rfl filled inType mark ?_
    simp only [propBindingOf, if_true, typedProps]
    split
    · exact .inl rfl
    · exact .inr ⟨_, String.append_assoc⟩
  | false =>
    have bound : (⟨q.name, none, formatDefault (propDefault m q) quote, q.type, false, false⟩ : PropBinding) ∈
        bindings m (declaredOnes c m) (declaresClass c m) :=
      List.mem_append_right _ (List.mem_map_of_mem member)
    have entry := List.mem_map_of_mem bound (f := fun b : PropBinding =>
      indent ++ b.name ++ ": \x7b type: " ++ runtimeType b.type ++
        (b.default.map (", default: " ++ ·)).getD "" ++ " \x7d,")
    have filled : (propBindingOf (bindings m (declaredOnes c m) (declaresClass c m)) false).code = _ :=
      if_neg fun empty => by
        rw [List.isEmpty_iff.mp empty] at entry
        cases entry
    refine .listed (runtimeType q.type ++
      (((formatDefault (propDefault m q) quote).map (", default: " ++ ·)).getD "" ++ " \x7d,")) filled ?_
    simpa only [String.append_assoc] using entry

theorem emits_of_mem {subjects : List String} {subject : String} (member : subject ∈ subjects)
    (props : List Property) (typescript : Bool) :
    Emits (emitsOf props subjects typescript) ("update:" ++ subject) := by
  have quoted : "'update:" = "'" ++ "update:" := rfl
  cases typescript with
  | true =>
    have line := List.mem_map_of_mem member (f := fun subject =>
      indent ++ "'update:" ++ subject ++ "': [value: " ++ eventType props subject ++ "];")
    refine .typed (eventType props subject) rfl ?_
    simpa only [quoted, String.append_assoc] using line
  | false =>
    have name := List.mem_map_of_mem member (f := fun subject => "'update:" ++ subject ++ "'")
    refine .listed rfl ?_
    simpa only [quoted, String.append_assoc] using name

theorem serves {p : StatePattern} {g : Generated} (target : o.target = .vue) (suits : Suits c p)
    (pattern : m.statePattern = some p) (declared : g.declarations = declarations c c.props m o merges)
    (block : g.declarationBlock = script g.declarations o.typescript) : Serves c o p g := by
  have writes : ∀ d ∈ declarations c c.props m o merges, d.kind ≠ .importing → g.Writes o d := by
    intro d member own
    rw [← declared] at member
    refine ⟨member, ?_⟩
    rw [writtenDeclaration, target, block]
    exact shown_script member own
  have label : g.Writes o (stateDeclaration p) := by
    refine writes _ (mem_sortDeclarations.mpr ?_) (by simp [stateDeclaration])
    simp [pattern]
  have handler : g.Writes o (toggle c p) := by
    refine writes _ (mem_sortDeclarations.mpr ?_) (by simp [toggle])
    simp [pattern, isMatch_of_suits suits]
  have subject : p.valueProp ∈ c.props.filterMap (changedValue? ·.name) := by
    obtain ⟨q, member, called⟩ := List.mem_map.mp suits.change
    exact List.mem_filterMap.mpr ⟨q, member, called ▸ suits.reports⟩
  have emits : g.Writes o (emitsOf c.props (c.props.filterMap (changedValue? ·.name)) o.typescript) := by
    refine writes _ (mem_sortDeclarations.mpr ?_) (by simp [emitsOf])
    have some : (c.props.filterMap (changedValue? ·.name)).isEmpty = false :=
      List.isEmpty_eq_false_iff_exists_mem.mpr ⟨_, subject⟩
    simp [some]
  have typed : o.typescript = true → g.Writes o (propTypeOf m (declaredOnes c m) (declaresClass c m)) := by
    intro typescript
    refine writes _ (mem_sortDeclarations.mpr ?_) (by simp [propTypeOf])
    simp [typescript, declaredOnes]
  have bound : g.Writes o (propBindingOf (bindings m (declaredOnes c m) (declaresClass c m)) o.typescript) := by
    refine writes _ (mem_sortDeclarations.mpr ?_) (by simp [propBindingOf])
    simp [declaredOnes]
  have planned : ∀ prop, Needed o.target c p prop → ∃ q ∈ declaredOnes c m, q.name = prop := by
    intro prop needed
    obtain ⟨member, listed⟩ := needed.ordinary suits
    obtain ⟨q, old, rfl⟩ := List.mem_map.mp member
    rw [target] at needed
    refine ⟨q, List.mem_filter.mpr ⟨mem_plannedProps.mpr (.inl ⟨old, listed⟩), ?_⟩, rfl⟩
    rw [needed.kept suits, Bool.not_false]
  have binds : ∀ q ∈ declaredOnes c m,
      (propBindingOf (bindings m (declaredOnes c m) (declaresClass c m)) o.typescript).Binds q.name q.name :=
    fun q member => ⟨_, List.mem_append_right _ (List.mem_map_of_mem member), rfl, rfl, rfl⟩
  refine ⟨?_, ?_, .label label rfl, .handler handler rfl, fun _ => .event target emits rfl (emits_of_mem subject _ _)⟩
  · intro prop needed r same
    obtain ⟨q, member, rfl⟩ := planned prop needed
    rw [target] at same
    cases same
    exact .public target bound rfl (binds q member) (lists member typed)
  · intro prop needed r same
    obtain ⟨q, member, rfl⟩ := planned prop needed
    rw [target] at same
    cases same
    exact .member target bound rfl (binds q member) (lists member typed)

end Vue

/-! ## Components -/

theorem stateClosed_of_serves {c : Component} {o : Options} {target : Target} {g : Generated}
    (serves : ∀ p, (metadataOf c).statePattern = some p → Serves c o p g)
    (label : ∀ d ∈ g.declarations, d.kind = .derived → ∃ p, (metadataOf c).statePattern = some p ∧
      writtenDeclaration o d = spelled (labelParts o.target c o.svelte.runes p))
    (handler : ∀ d ∈ g.declarations, d.kind = .handler → ∃ p, (metadataOf c).statePattern = some p ∧
      writtenDeclaration o d = spelled (toggleParts o.target c p)) (nodes : List Node) :
    StateClosed c o (looksIn (drawForest (attributesFor target c (metadataOf c)) true nodes)) g := by
  refine ⟨?_, ?_, ?_⟩
  · intro look listed a member
    obtain ⟨p, h, part, found, gained⟩ := exists_part_of_gained listed member
    exact ⟨writtenAttribute_gained c o a, (serves p found).closes_attribute gained _⟩
  · intro d member kind
    obtain ⟨p, found, written⟩ := label d member kind
    exact ⟨p, found, written, (serves p found).closes_label _⟩
  · intro d member kind
    obtain ⟨p, found, written⟩ := handler d member kind
    exact ⟨p, found, written, (serves p found).closes_toggle⟩

/-- Whatever the state code of a component refers to is declared in its script. -/
theorem state_code_closed {c : Component} (sound : Sound c.root) (shared : Option Shared) (o : Options) :
    ∃ g drawing, generate (described c shared) o = .ok g ∧
      looksIn drawing = looksFrom (attributesFor o.target (described c shared) (metadataOf (described c shared)))
        true (elementsOf (markupOf (described c shared) (metadataOf (described c shared)))) ∧
      ink g.markupBlock = ink (writtenDrawing (described c shared) o drawing) ∧
      StateClosed (described c shared) o (looksIn drawing) g := by
  have known : Sound (described c shared).root := sound
  have suits := @suits_described c shared
  generalize described c shared = c at known suits ⊢
  cases target : o.target with
  | svelte =>
    obtain ⟨g, merges, generated, declared, block, markup⟩ := Svelte.exists_generated known o
    refine ⟨g, _, ?_, looksIn_drawForest _ _ _, ?_, stateClosed_of_serves ?_ ?_ ?_ _⟩
    · rw [generate, target, generated]
    · rw [writtenDrawing, target]
      exact markup
    · exact fun p found => Svelte.serves target (suits found) found declared block
    · intro d member kind
      obtain ⟨p, found, rfl⟩ := Svelte.of_derived (declared ▸ member) kind
      rw [writtenDeclaration, target]
      exact ⟨p, found, Svelte.spelled_label c p _ _⟩
    · intro d member kind
      obtain ⟨p, found, rfl⟩ := Svelte.of_handler (declared ▸ member) kind
      rw [writtenDeclaration, target]
      exact ⟨p, found, Svelte.spelled_toggle c p⟩
  | vue =>
    obtain ⟨g, merges, generated, declared, block, markup⟩ := Vue.exists_generated known o
    refine ⟨g, _, ?_, looksIn_drawForest _ _ _, ?_, stateClosed_of_serves ?_ ?_ ?_ _⟩
    · rw [generate, target, generated]
    · rw [writtenDrawing, target]
      exact markup
    · exact fun p found => Vue.serves target (suits found) found declared block
    · intro d member kind
      obtain ⟨p, found, rfl⟩ := Vue.of_derived (declared ▸ member) kind
      rw [writtenDeclaration, target]
      exact ⟨p, found, Vue.spelled_label c p _⟩
    · intro d member kind
      obtain ⟨p, found, rfl⟩ := Vue.of_handler (declared ▸ member) kind
      rw [writtenDeclaration, target]
      exact ⟨p, found, Vue.spelled_toggle c p⟩

/-- A toggle whose state has another name inside than outside. -/
def renamedToggle : Component :=
  { name := "Toggle"
    root := [.element { tag := "button" } []]
    props := [{ name := "pressed", isState := true, stateLabels := some ⟨"on", "off"⟩, localName := some "isOn" },
      { name := "onPressedChange" }, { name := "disabled" }] }

theorem state_code_closed_renamed :
    ∃ g drawing, generate (described renamedToggle none) { target := .svelte, formatTimeout := .whole 1 } = .ok g ∧
      StateClosed (described renamedToggle none) { target := .svelte, formatTimeout := .whole 1 }
        (looksIn drawing) g ∧
      (looksIn drawing).flatMap (·.gained) = [⟨"type", .static "button"⟩, ⟨"aria-pressed", .prop "pressed"⟩,
        ⟨"data-state", .variable "dataState"⟩, ⟨"disabled", .prop "disabled"⟩, ⟨"onClick", .event "toggle"⟩] ∧
      g.Declares { target := .svelte, formatTimeout := .whole 1 } (.local "pressed" "isOn") := by
  have sound : Sound renamedToggle.root := by decide +kernel
  obtain ⟨g, drawing, generated, looks, -, closed⟩ := state_code_closed sound none
    { target := .svelte, formatTimeout := .whole 1 }
  have gained : (looksIn drawing).flatMap (·.gained) = [⟨"type", .static "button"⟩,
      ⟨"aria-pressed", .prop "pressed"⟩, ⟨"data-state", .variable "dataState"⟩, ⟨"disabled", .prop "disabled"⟩,
      ⟨"onClick", .event "toggle"⟩] := by
    rw [looks]
    decide +kernel
  refine ⟨g, drawing, generated, closed, gained, ?_⟩
  obtain ⟨look, listed, member⟩ : ∃ look ∈ looksIn drawing,
      (⟨"aria-pressed", .prop "pressed"⟩ : Gained) ∈ look.gained :=
    List.mem_flatMap.mp (gained ▸ by simp)
  exact (closed.markup look listed _ member).2 _ (by decide +kernel)

end Recast.Generate
