import Recast.Proofs.Analysis.Attribute
import Recast.Proofs.ClassExpr.Requote
import Recast.Proofs.Generate.Carried

/-!
# Attributes read back

An attribute of a generated tag is read up to the next double quote, and references in its value are read
back. Static values are written as they stand in the source, so whether they read back depends on what
they hold; expressions in Vue are written with care for quotes.
-/

set_option autoImplicit false

namespace Recast.ClassExpr

open Recast.Text

/-- A class expression of a Vue component before its quotes are seen to. -/
def adaptedToProps (code : String) (variantName : Option String) : List Char :=
  let code := stripPropsAccessChars
    (replaceChars "props.className".toList "className".toList (stripChars code.toList))
  classToProps (
    match variantName.filter (· ≠ "") with
    | none => code
    | some name =>
      let (code, spans) := resolveCalls name.toList "props.".toList code
      spans.reverse.foldl (fun code span => appendClass code span "className".toList) code)

theorem adapt_vue (code : String) (variantName : Option String) :
    adapt code .vue variantName = String.ofList (attributeSafeChars (adaptedToProps code variantName)) := by
  cases has : variantName.filter (· ≠ "") <;> simp only [adapt, adaptedToProps, has, if_true]

end Recast.ClassExpr

namespace Recast.Layout

open Recast.Analysis Recast.ClassExpr Recast.Generate Recast.Literal Recast.Markup Recast.Quoted
open Recast.Tsx (Tree)

/-! ## Static values -/

/-- The code units of what the source says. -/
def unitsOf? : Said → Option (List Nat)
  | .flag => some (textUnits "true".toList)
  | .markup text => some (textUnits (decoded (inside text)))
  | .script literal => if literal.toList.head? = some '`' then none else value? literal.toList
  | .code _ => none

/-- What is said can stand between double quotes as it is. -/
def Survives : Said → Prop
  | .flag => True
  | .markup text => '"' ∉ inside text
  | .script literal => '"' ∉ inside literal ∧ '\\' ∉ inside literal ∧ ¬ reference <:+: inside literal
  | .code _ => False

instance : DecidablePred Survives
  | .flag => inferInstanceAs (Decidable True)
  | .markup text => inferInstanceAs (Decidable ('"' ∉ inside text))
  | .script literal => inferInstanceAs (Decidable
      ('"' ∉ inside literal ∧ '\\' ∉ inside literal ∧ ¬ reference <:+: inside literal))
  | .code _ => inferInstanceAs (Decidable False)

/-- A scan takes exactly the attribute, and its value reads back as given. -/
def ReadsBack (name value : String) (v : List Nat) : Prop :=
  ScansExactly name value ∧ textUnits (decoded value.toList) = v

theorem readsBack_iff {said : Said} {v : List Nat} (given : unitsOf? said = some v) (name : String) :
    ReadsBack name said.kept v ↔ Survives said := by
  rw [ReadsBack, scansExactly_iff]
  cases said with
  | flag =>
    cases given
    exact iff_of_true ⟨by decide, by decide⟩ trivial
  | markup text =>
    cases given
    simp [Said.kept, Survives]
  | script literal =>
    rw [unitsOf?] at given
    split at given
    · cases given
    · rename_i string
      obtain ⟨q, -, first, value⟩ := value?_eq_some given
      have notTemplate : q ≠ '`' := fun same => string (same ▸ first)
      have back := textUnits_decoded_iff notTemplate value
      rw [Said.kept, String.toList_ofList, Survives]
      exact and_congr_right fun _ => back
  | code text => cases given

/-- A static attribute, with its name and value. -/
inductive IsStatic : Attribute → String → String → Prop
  | classText (text : String) : IsStatic (.classText text) "class" text
  | static (name value : String) : IsStatic (.static name value) name value

theorem IsStatic.svelte {a : Attribute} {name value : String} (static : IsStatic a name value)
    (s : Generate.Svelte.Setting) : Generate.Svelte.attributeText s a = assigned name value := by
  cases static <;> simp [Generate.Svelte.attributeText, assigned]

theorem IsStatic.vue {a : Attribute} {name value : String} (static : IsStatic a name value)
    (s : Generate.Vue.Setting) : Generate.Vue.attributeText s a = assigned name value := by
  cases static <;> simp [Generate.Vue.attributeText, assigned]

section Plan

variable {target : Target} {c : Component} {m : Metadata} {h : Head} {isRoot : Bool} {a : Attribute}

theorem exists_attribute_of_static (planned : a ∈ attributesFor target c m h isRoot) {name value : String}
    (static : IsStatic a name value) : ∃ key, attributeName key = name ∧ (key, value) ∈ h.attributes := by
  cases mem_attributesFor_iff.mp planned with
  | classText _ found =>
    cases static
    exact ⟨classKey, by decide, Assoc.mem_of_get? found⟩
  | static listed _ =>
    cases static
    exact ⟨_, rfl, listed⟩
  | _ => cases static

theorem exists_binding_of_written (planned : a ∈ attributesFor target c m h isRoot) {route : Route} {code : String}
    (written : WrittenIn .vue (route, code) a) :
    ∃ entry ∈ h.bindings, entry.2.code = code ∧ ¬ (entry.1 = spreadKey ∧ entry.2.kind = .spread) := by
  cases mem_attributesFor_iff.mp planned with
  | @classExpression b found =>
    cases written
    have apart : classKey ≠ spreadKey := by decide
    exact ⟨(classKey, b), Assoc.mem_of_get? found, rfl, fun both => apart both.1⟩
  | @expression key b listed _ own =>
    cases written
    exact ⟨(key, b), listed, rfl, fun both => own (.inr (.inr both.1))⟩
  | @event key b listed kind =>
    cases written
    exact ⟨(key, b), listed, rfl, fun both => by rw [kind] at both; cases both.2⟩
  | ref _ =>
    cases written with
    | ref _ other => cases other
  | _ => cases written

end Plan

/-! ## Expressions -/

/-- An expression of the source in terms of a Vue component, before its quotes are seen to. -/
def unquoted (s : Generate.Vue.Setting) (route : Route) (code : String) : List Char :=
  match route with
  | .classBinding => adaptedToProps (renameIdentifiers code s.renames) s.variantName
  | _ => (Generate.Vue.expression s code).toList

/-- A value reads back as an expression with what looks like a literal in single quotes where it can be.
Where only strings hold quotes those are its tokens, some of them in other quotes, unless it holds a
reference of its own; and no literal denotes anything else for it. -/
def KeepsLiterals (e : List Char) (value : String) : Prop :=
  decoded value.toList = decoded (singlyQuoted e) ∧
  ∀ ts : List Token, (∀ t ∈ ts, t.IsPlain) → spelled ts = e →
    (decoded value.toList = spelled (ts.map Token.requoted) ↔ ¬ reference <:+: e) ∧
      ∀ t ∈ ts, t.requoted.value? = t.value?

theorem attributeSafe_reads_back (name : String) (e : List Char) :
    ScansExactly name (String.ofList (attributeSafeChars e)) ∧
      KeepsLiterals e (String.ofList (attributeSafeChars e)) := by
  refine ⟨?_, ?_, ?_⟩
  · rw [scansExactly_iff, String.toList_ofList]
    exact not_mem_flatMap_quoteReference _
  · rw [String.toList_ofList]
    exact decoded_flatMap_quoteReference _
  · rintro ts plain rfl
    rw [String.toList_ofList]
    exact ⟨decoded_attributeSafeChars_iff plain, fun t member => value?_requoted (plain t member)⟩

theorem quotedExpression_eq (s : Generate.Vue.Setting) {route : Route} (other : route ≠ .classBinding)
    (front code : String) :
    front ++ "=" ++ Generate.Vue.quotedExpression s code =
      assigned front (String.ofList (attributeSafeChars (unquoted s route code))) := by
  have same : unquoted s route code = (Generate.Vue.expression s code).toList := by
    cases route <;> first | contradiction | rfl
  rw [same, ← String.toList_inj]
  simp [Generate.Vue.quotedExpression, assigned, attributeSafeQuotes]

theorem exists_assigned_of_written (s : Generate.Vue.Setting) {a : Attribute} {route : Route} {code : String}
    (written : WrittenIn .vue (route, code) a) :
    ∃ name, Generate.Vue.attributeText s a =
      assigned name (String.ofList (attributeSafeChars (unquoted s route code))) := by
  cases written with
  | classBinding =>
    refine ⟨":class", ?_⟩
    simp [Generate.Vue.attributeText, assigned, Generate.Vue.classExpression, adapt_vue, unquoted]
  | ref _ other => cases other
  | expression name => exact ⟨":" ++ name, quotedExpression_eq s (by decide) _ code⟩
  | event name => exact ⟨"@" ++ name, quotedExpression_eq s (by decide) _ code⟩

/-- Some attribute in a tree has a name and is given something. -/
def SaidIn (root : Tree) (name : String) (said : Said) : Prop :=
  ∃ tag ∈ root.walk, ∃ t ∈ tag.parts, t.kind = .attribute ∧ said? t = some (name, said)

/-- Of every element that is made of a tree, for both targets: when its static attributes read back as what
the source gives them, and that its expressions and its guard in Vue always scan and keep their literals. -/
theorem attributes_read_back (ctx : MarkupContext) (root : Tree) (noted : List String) {h : Head}
    {children : List Node}
    (made : .element h children ∈ Node.preorderList ((convertRoot ctx root).run noted).1) (c : Component)
    (m : Metadata) (runes isRoot : Bool) {target : Target} {a : Attribute}
    (planned : a ∈ attributesFor target c m h isRoot) :
    (∀ name value, IsStatic a name value →
      Generate.Svelte.attributeText ⟨c, m, runes⟩ a = assigned name value ∧
      Generate.Vue.attributeText ⟨c, m⟩ a = assigned name value ∧
      ∃ name' said, SaidIn root name' said ∧ name = attributeName (attributeKey name') ∧ value = said.kept ∧
        ∀ v, unitsOf? said = some v → (ReadsBack name value v ↔ Survives said)) ∧
    (∀ route code, WrittenIn .vue (route, code) a →
      (∃ name', SaidIn root name' (.code code)) ∧
      ∃ name value, Generate.Vue.attributeText ⟨c, m⟩ a = assigned name value ∧ ScansExactly name value ∧
        KeepsLiterals (unquoted ⟨c, m⟩ route code) value) ∧
    ∀ guard, ∃ value, Generate.Vue.guardDirective ⟨c, m⟩ guard = assigned "v-if" value ∧
      ScansExactly "v-if" value ∧ KeepsLiterals (unquoted ⟨c, m⟩ .guard guard) value := by
  obtain ⟨tag, inside, read⟩ := convertRoot_made ctx root noted _ made
  refine ⟨?_, ?_, ?_⟩
  · intro name value static
    refine ⟨static.svelte _, static.vue _, ?_⟩
    obtain ⟨key, rfl, member⟩ := exists_attribute_of_static planned static
    obtain ⟨t, part, kind, name', said, given, -, same⟩ := read.attributes _ member
    obtain ⟨rfl, rfl⟩ := Prod.mk.inj same
    exact ⟨name', said, ⟨tag, inside, t, part, kind, given⟩, rfl, rfl, fun v units => readsBack_iff units _⟩
  · intro route code written
    obtain ⟨entry, member, rfl, bound⟩ := exists_binding_of_written planned written
    obtain ⟨t, part, kind, name', given⟩ := (read.bindings entry member).resolve_left bound
    obtain ⟨name, text⟩ := exists_assigned_of_written ⟨c, m⟩ written
    have back := attributeSafe_reads_back name (unquoted ⟨c, m⟩ route entry.2.code)
    exact ⟨⟨name', tag, inside, t, part, kind, given⟩, name, _, text, back.1, back.2⟩
  · intro guard
    have back := attributeSafe_reads_back "v-if" (unquoted ⟨c, m⟩ .guard guard)
    exact ⟨_, quotedExpression_eq ⟨c, m⟩ (by decide) "v-if" guard, back.1, back.2⟩

/-- A tag with a title that holds double quotes and a language that holds none. -/
def saying : Tree :=
  .mk .selfClosingTag .none "<p title='say \"hi\"' lang=\"en\" />" [
    .mk .identifier .name "p" [],
    .mk .attribute .none "title='say \"hi\"'" [
      .mk .propertyName .none "title" [], .mk .stringLiteral .none "'say \"hi\"'" []],
    .mk .attribute .none "lang=\"en\"" [
      .mk .propertyName .none "lang" [], .mk .stringLiteral .none "\"en\"" []]]

def sayingHead : Head := { tag := "p", attributes := [("title", "say \"hi\""), ("lang", "en")] }

/-- An element with this head and no children. -/
def isBare (h : Head) : Node → Bool
  | .element head children => decide (head = h) && children.isEmpty
  | _ => false

theorem saying_made : .element sayingHead [] ∈
    Node.preorderList ((convertRoot { component := "Quote" } saying).run []).1 := by
  have checked : (Node.preorderList ((convertRoot { component := "Quote" } saying).run []).1).any
      (isBare sayingHead) = true := by decide +kernel
  obtain ⟨n, member, isElement⟩ := List.any_eq_true.mp checked
  cases n with
  | element h children =>
    rw [isBare, Bool.and_eq_true, decide_eq_true_eq, List.isEmpty_iff] at isElement
    obtain ⟨rfl, rfl⟩ := isElement
    exact member
  | text => cases isElement
  | fragment => cases isElement
  | guarded => cases isElement
  | slot => cases isElement
  | foreign => cases isElement

theorem saidIn_saying {name : String} {said : Said} (found : SaidIn saying name said) :
    (name = "title" ∧ said = .markup "'say \"hi\"'") ∨ (name = "lang" ∧ said = .markup "\"en\"") := by
  obtain ⟨tag, inside, t, part, -, given⟩ := found
  have all : saying.walk.flatMap (fun tag => tag.parts.filterMap said?) =
      [("title", .markup "'say \"hi\"'"), ("lang", .markup "\"en\"")] := by decide +kernel
  have listed : (name, said) ∈ saying.walk.flatMap (fun tag => tag.parts.filterMap said?) :=
    List.mem_flatMap.mpr ⟨tag, inside, List.mem_filterMap.mpr ⟨t, part, given⟩⟩
  rw [all] at listed
  simpa using listed

/-- The title does not read back, the language does. -/
theorem attributes_read_back_saying :
    (∃ said v, SaidIn saying "title" said ∧ unitsOf? said = some v ∧ ¬ ReadsBack "title" "say \"hi\"" v) ∧
    ∃ said v, SaidIn saying "lang" said ∧ unitsOf? said = some v ∧ ReadsBack "lang" "en" v := by
  have read (a : Attribute) (planned : a ∈ attributesFor .vue { name := "Quote" } {} sayingHead true) :=
    attributes_read_back { component := "Quote" } saying [] saying_made { name := "Quote" } {} true true planned
  constructor
  · obtain ⟨-, -, name', said, found, -, kept, back⟩ :=
      (read (.static "title" "say \"hi\"") (by decide +kernel)).1 _ _ (.static _ _)
    rcases saidIn_saying found with ⟨rfl, rfl⟩ | ⟨rfl, rfl⟩
    · refine ⟨_, _, found, rfl, fun readsBack => ?_⟩
      exact absurd ((back _ rfl).mp readsBack) (by decide)
    · exact absurd kept (by decide)
  · obtain ⟨-, -, name', said, found, -, kept, back⟩ :=
      (read (.static "lang" "en") (by decide +kernel)).1 _ _ (.static _ _)
    rcases saidIn_saying found with ⟨rfl, rfl⟩ | ⟨rfl, rfl⟩
    · exact absurd kept (by decide)
    · exact ⟨_, _, found, rfl, (back _ rfl).mpr (by decide)⟩

end Recast.Layout
