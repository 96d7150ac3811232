import Recast.Proofs.Analysis.Attribute
import Recast.Proofs.Analysis.Taken

/-!
# Props with names of their own

The props of a component come from one place: a type declaration, or its parameter with the catalog. In a
source that says no name twice in one pattern or one body, the same prop can be found twice only where two
operands of an intersection meet. Axes and catalog entries are added where they are missing; the members
of an object type are added as they are.
-/

set_option autoImplicit false

namespace Recast.Analysis

open Recast.Tsx Recast.Text

/-! ## Names in a source -/

def memberName? (t : Tree) : Option String :=
  if t.kind = .propertySignature then ((t.field? .name).bind Tree.propertyKey?).filter (· ≠ "") else none

def memberNames (t : Tree) : List String := t.children.filterMap memberName?

def entryName? (entry : Tree) : Option String :=
  match entry.kind with
  | .shorthandPattern => some entry.text
  | .defaultedShorthand => some (entry.fieldText .left)
  | .pairPattern => (entry.field? .key).bind Tree.propertyKey?
  | _ => none

/-- No pattern and no body of a type says a name twice. -/
structure NamesOnce (root : Tree) : Prop where
  pattern : ∀ t ∈ root.walk, t.kind = .objectPattern → (t.parts.filterMap entryName?).Nodup
  body : ∀ t ∈ root.walk, t.kind = .interface → ∀ body ∈ t.field? .body, (memberNames body).Nodup
  object : ∀ t ∈ root.walk, t.kind = .objectType → (memberNames t).Nodup

theorem map_name_of_label {p q : Option Property} (same : p.map Property.label = q.map Property.label) :
    p.map (·.name) = q.map (·.name) := by
  have names : ∀ r : Option Property, r.map (·.name) = (r.map Property.label).map (·.1) := by
    intro r
    rw [Option.map_map]
    rfl
  rw [names, names, same]

/-! ## Members and axes -/

theorem map_name_memberProps (scope : VariantScope) (before : Option Tree) (members : List Tree) :
    (memberProps scope before members).map (·.name) = members.filterMap memberName? := by
  induction members generalizing before with
  | nil => rfl
  | cons t ts ih =>
    have here : (if t.kind = .propertySignature then (signatureProp? scope before t).toList
        else []).map (·.name) = (memberName? t).toList := by
      rw [memberName?]
      split
      · rw [signatureProp?]
        cases ((t.field? .name).bind Tree.propertyKey?).filter (· ≠ "") with
        | none => rfl
        | some name => exact congrArg (fun label => [label.1]) (markVariant_label scope.own _)
      · rfl
    rw [memberProps, List.map_append, here, ih]
    cases named : memberName? t with
    | none => rw [List.filterMap_cons_none named]; rfl
    | some name => rw [List.filterMap_cons_some named]; rfl

theorem map_name_objectTypeProps (scope : VariantScope) (t : Tree) :
    (objectTypeProps scope t).map (·.name) = memberNames t :=
  map_name_memberProps scope none t.children

/-- The axes of the configuration that a type refers to. -/
def referredAxes (scope : VariantScope) (clause : String) : List String :=
  let config := (firstMatch? variantPropsOf? clause.toList).bind fun name =>
    scope.configs.get? name <|> scope.own
  (config.map VariantConfig.axes).getD []

theorem map_name_addVariantAxes (scope : VariantScope) (clause : String) (props : List Property) :
    (addVariantAxes scope clause props).map (·.name) =
      props.map (·.name) ++ (referredAxes scope clause).filter (· ∉ props.map (·.name)) := by
  rw [addVariantAxes, referredAxes]
  cases firstMatch? variantPropsOf? clause.toList with
  | none => simp
  | some name =>
    dsimp only [Option.bind_some]
    cases scope.configs.get? name <|> scope.own with
    | none => simp
    | some config =>
      have axis : ∀ axes : List String, (axes.map (variantProp config)).map (·.name) = axes := by
        intro axes
        rw [List.map_map]
        exact List.map_id axes
      have missing : ∀ axis : String,
          (!props.any (·.name == axis)) = decide (axis ∉ props.map (·.name)) := by
        intro axis
        rw [Bool.eq_iff_iff]
        simp
      dsimp only [Option.map_some, Option.getD_some]
      rw [List.map_append, axis, List.filter_congr fun axis _ => missing axis]

theorem mem_addVariantAxes {scope : VariantScope} {clause : String} {props : List Property} {name : String} :
    name ∈ (addVariantAxes scope clause props).map (·.name) ↔
      name ∈ props.map (·.name) ∨ name ∈ referredAxes scope clause := by
  rw [map_name_addVariantAxes, List.mem_append, List.mem_filter, decide_eq_true_eq]
  by_cases listed : name ∈ props.map (·.name)
  · simp [listed]
  · simp [listed]

theorem nodup_append_filter {names more : List String} (distinct : names.Nodup) (others : more.Nodup) :
    (names ++ more.filter (· ∉ names)).Nodup := by
  refine List.nodup_append.mpr ⟨distinct, others.sublist List.filter_sublist, ?_⟩
  rintro name listed _ added rfl
  exact of_decide_eq_true (List.mem_filter.mp added).2 listed

/-- The configurations that a type can refer to have no axis twice. -/
structure VariantScope.Distinct (scope : VariantScope) : Prop where
  known : scope.Known
  axes : ∀ entry ∈ scope.configs, entry.2.axes.Nodup

theorem nodup_referredAxes {scope : VariantScope} (distinct : scope.Distinct) (clause : String) :
    (referredAxes scope clause).Nodup := by
  rw [referredAxes]
  cases firstMatch? variantPropsOf? clause.toList with
  | none => exact List.nodup_nil
  | some name =>
    dsimp only [Option.bind_some]
    cases found : scope.configs.get? name <|> scope.own with
    | none => exact List.nodup_nil
    | some config =>
      rw [Option.orElse_eq_orElse, Option.orElse_eq_or, Option.or_eq_some_iff] at found
      rcases found with byName | ⟨-, own⟩
      · exact distinct.axes _ (Assoc.mem_of_get? byName)
      · obtain ⟨entry, listed, rfl⟩ := distinct.known config own
        exact distinct.axes entry listed

section Scope

variable {scope : VariantScope} (distinct : scope.Distinct)

include distinct

theorem nodup_addVariantAxes (clause : String) {props : List Property} (once : (props.map (·.name)).Nodup) :
    ((addVariantAxes scope clause props).map (·.name)).Nodup := by
  rw [map_name_addVariantAxes]
  exact nodup_append_filter once (nodup_referredAxes distinct clause)

theorem nodup_interfaceProps {t : Tree} (once : ∀ body ∈ t.field? .body, (memberNames body).Nodup) :
    ((interfaceProps scope t).map (·.name)).Nodup := by
  have own : ((((t.field? .body).map (objectTypeProps scope)).getD []).map (·.name)).Nodup := by
    cases found : t.field? .body with
    | none => exact List.nodup_nil
    | some body =>
      rw [Option.map_some, Option.getD_some, map_name_objectTypeProps]
      exact once body found
  refine List.foldlRecOn (motive := fun props : List Property => (props.map (·.name)).Nodup) _ _ own ?_
  intro props once clause _
  exact nodup_addVariantAxes distinct clause.text once

end Scope

/-! ## Intersections -/

/-- The names that an operand of an intersection stands for. -/
def operandNames (scope : VariantScope) (part : Tree) : List String :=
  if part.kind = .objectType then memberNames part
  else if contains "VariantProps" part.text then referredAxes scope part.text
  else []

/-- Of two operands the one behind does not declare a name of the one in front. -/
def Apart (scope : VariantScope) (front behind : Tree) : Prop :=
  behind.kind = .objectType → ∀ name ∈ operandNames scope front, name ∉ memberNames behind

/-- No object type in an alias declares a name that an operand in front of it stands for. -/
def OperandsApart (scope : VariantScope) (t : Tree) : Prop :=
  ∀ value ∈ t.field? .value, (intersectionParts value).Pairwise (Apart scope)

/-- Adds the props of an operand to those of the operands in front of it. -/
def addOperand (scope : VariantScope) (props : List Property) (part : Tree) : List Property :=
  if part.kind = .objectType then props ++ objectTypeProps scope part
  else if contains "VariantProps" part.text then addVariantAxes scope part.text props
  else props

theorem aliasProps_eq {scope : VariantScope} {t value : Tree} (found : t.field? .value = some value) :
    aliasProps scope t = (intersectionParts value).foldl (addOperand scope) [] := by
  rw [aliasProps, found]
  rfl

theorem mem_addOperand {scope : VariantScope} {props : List Property} {part : Tree} {name : String} :
    name ∈ (addOperand scope props part).map (·.name) ↔
      name ∈ props.map (·.name) ∨ name ∈ operandNames scope part := by
  rw [addOperand, operandNames]
  by_cases object : part.kind = .objectType
  · rw [if_pos object, if_pos object, List.map_append, map_name_objectTypeProps, List.mem_append]
  · rw [if_neg object, if_neg object]
    split
    · exact mem_addVariantAxes
    · simp

theorem mem_operands {scope : VariantScope} {parts : List Tree} {name : String} :
    name ∈ (parts.foldl (addOperand scope) []).map (·.name) ↔
      ∃ part ∈ parts, name ∈ operandNames scope part := by
  induction parts using List.reverseRecOn with
  | nil => simp
  | append_singleton parts part ih =>
    rw [List.foldl_concat, mem_addOperand, ih]
    simp [or_and_right, exists_or]

section Scope

variable {scope : VariantScope} (distinct : scope.Distinct)

include distinct

/-- An object type is the only operand that can bring a prop in a second time. -/
theorem nodup_addOperand_iff {part : Tree} (once : part.kind = .objectType → (memberNames part).Nodup)
    (props : List Property) :
    ((addOperand scope props part).map (·.name)).Nodup ↔ (props.map (·.name)).Nodup ∧
      (part.kind = .objectType → ∀ name ∈ props.map (·.name), name ∉ memberNames part) := by
  rw [addOperand]
  by_cases object : part.kind = .objectType
  · rw [if_pos object, List.map_append, map_name_objectTypeProps, List.nodup_append]
    constructor
    · rintro ⟨front, -, apart⟩
      exact ⟨front, fun _ name listed declared => apart name listed name declared rfl⟩
    · rintro ⟨front, apart⟩
      refine ⟨front, once object, ?_⟩
      rintro name listed _ declared rfl
      exact apart object name listed declared
  · rw [if_neg object]
    have kept : (props.map (·.name)).Nodup ↔ (props.map (·.name)).Nodup ∧
        (part.kind = .objectType → ∀ name ∈ props.map (·.name), name ∉ memberNames part) :=
      ⟨fun once => ⟨once, fun isObject => absurd isObject object⟩, And.left⟩
    rw [← kept]
    split
    · constructor
      · intro all
        rw [map_name_addVariantAxes] at all
        exact (List.nodup_append.mp all).1
      · exact nodup_addVariantAxes distinct part.text
    · exact Iff.rfl

theorem nodup_operands_iff {parts : List Tree}
    (once : ∀ part ∈ parts, part.kind = .objectType → (memberNames part).Nodup) :
    ((parts.foldl (addOperand scope) []).map (·.name)).Nodup ↔ parts.Pairwise (Apart scope) := by
  -- from the end, since an operand meets all operands in front of it
  induction parts using List.reverseRecOn with
  | nil => exact iff_of_true List.nodup_nil List.Pairwise.nil
  | append_singleton parts part ih =>
    have last : (part.kind = .objectType →
          ∀ name ∈ (parts.foldl (addOperand scope) []).map (·.name), name ∉ memberNames part) ↔
        ∀ front ∈ parts, Apart scope front part := by
      constructor
      · intro apart front listed object name named
        exact apart object name (mem_operands.mpr ⟨front, listed, named⟩)
      · intro apart object name named
        obtain ⟨front, listed, named⟩ := mem_operands.mp named
        exact apart front listed object name named
    rw [List.foldl_concat, nodup_addOperand_iff distinct (once part (by simp)), last,
      ih fun front listed => once front (by simp [listed]), List.pairwise_append]
    simp

variable {root : Tree} (once : NamesOnce root)

include once

theorem nodup_aliasProps_iff {t : Tree} (inside : t ∈ root.walk) :
    ((aliasProps scope t).map (·.name)).Nodup ↔ OperandsApart scope t := by
  cases found : t.field? .value with
  | none =>
    refine iff_of_true ?_ ?_
    · rw [aliasProps, found]
      exact List.nodup_nil
    · intro value declared
      rw [found] at declared
      cases declared
  | some value =>
    have valueInside := Tree.walk_trans root t value inside (Tree.mem_walk_of_field? found)
    have each : ∀ part ∈ intersectionParts value, part.kind = .objectType → (memberNames part).Nodup := by
      intro part listed object
      refine once.object part ?_ object
      rw [intersectionParts] at listed
      split at listed
      · exact Tree.walk_trans root value part valueInside (Tree.mem_walk_of_mem_parts listed)
      · exact List.mem_singleton.mp listed ▸ valueInside
    rw [aliasProps_eq found, nodup_operands_iff distinct each, OperandsApart, found]
    simp

theorem nodup_declarationProps_iff {t : Tree} (inside : t ∈ root.walk)
    (declares : t.kind = .interface ∨ t.kind = .typeAlias) :
    ((declarationProps scope t).map (·.name)).Nodup ↔ (t.kind = .typeAlias → OperandsApart scope t) := by
  rw [declarationProps]
  rcases declares with isInterface | isAlias
  · rw [if_pos isInterface]
    refine iff_of_true (nodup_interfaceProps distinct (once.body t inside isInterface)) ?_
    intro isAlias
    rw [isInterface] at isAlias
    cases isAlias
  · rw [if_neg (by simp [isAlias]), nodup_aliasProps_iff distinct once inside]
    simp [isAlias]

end Scope

theorem mem_typeDeclarations {root t : Tree} (listed : t ∈ typeDeclarations root) :
    t ∈ root.walk ∧ (t.kind = .interface ∨ t.kind = .typeAlias) := by
  obtain ⟨listed, declares⟩ := List.mem_filter.mp listed
  refine ⟨?_, by simpa using declares⟩
  obtain ⟨statement, top, rfl⟩ := List.mem_map.mp listed
  have statementInside : statement ∈ root.walk := Tree.mem_walk_of_mem_parts top
  split
  · cases exported : statement.field? .declaration with
    | none => exact statementInside
    | some d => exact Tree.walk_trans root statement d statementInside (Tree.mem_walk_of_field? exported)
  · exact statementInside

/-! ## Parameters -/

theorem bareProp?_name (entry : Tree) : (bareProp? entry).map (·.name) = entryName? entry := by
  rw [bareProp?, entryName?]
  cases entry.kind with
  | pairPattern => cases (entry.field? .key).bind Tree.propertyKey? <;> rfl
  | _ => rfl

theorem entryProp?_name (scope : VariantScope) (entry : Tree) :
    (entryProp? scope entry).map (·.name) =
      (entryName? entry).filter fun name => name ≠ "" && name ≠ "children" := by
  rw [map_name_of_label (entryProp?_label scope entry), ← bareProp?_name]
  cases bareProp? entry with
  | none => rfl
  | some p =>
    rw [Option.map_some, Option.filter_some, Option.filter_some]
    split <;> rfl

theorem map_name_entries (scope : VariantScope) (entries : List Tree) :
    (entries.filterMap (entryProp? scope)).map (·.name) =
      (entries.filterMap entryName?).filter fun name => name ≠ "" && name ≠ "children" := by
  rw [List.map_filterMap, List.filter_filterMap]
  exact List.filterMap_congr fun entry _ => entryProp?_name scope entry

theorem nodup_patternProps {pattern : Tree}
    (once : pattern.kind = .objectPattern → (pattern.parts.filterMap entryName?).Nodup) (scope : VariantScope) :
    ((patternProps scope pattern).map (·.name)).Nodup := by
  rw [patternProps]
  split
  · rename_i object
    rw [map_name_entries]
    exact (once object).sublist List.filter_sublist
  · exact List.nodup_nil

/-- The catalog lists each prop of a part once. -/
theorem nodup_primitivePropsFor? {package part : String} {entries : List Catalog.PrimitiveProp}
    (found : Catalog.primitivePropsFor? package part = some entries) : (entries.map (·.name)).Nodup := by
  have checked : ∀ package ∈ Catalog.primitiveProps, ∀ part ∈ package.2, (part.2.map (·.name)).Nodup := by
    decide
  obtain ⟨parts, inCatalog, inPackage⟩ := Option.bind_eq_some_iff.mp found
  exact checked _ (Assoc.mem_of_get? inCatalog) _ (Assoc.mem_of_get? inPackage)

theorem nodup_addPrimitiveProps (component : String) (propsType : Option String) (namespaces : Assoc String)
    {props : List Property} (once : (props.map (·.name)).Nodup) :
    Yields (fun all => (all.map (·.name)).Nodup) (addPrimitiveProps component propsType namespaces props) := by
  rw [addPrimitiveProps]
  split
  · exact Yields.pure once
  · dsimp only
    split
    · exact Yields.after fun _ => Yields.pure once
    · rename_i entries found
      obtain ⟨package, -, listed⟩ := Option.bind_eq_some_iff.mp found
      refine Yields.pure ?_
      rw [List.map_append, List.map_map]
      refine List.nodup_append.mpr ⟨once, ?_, ?_⟩
      · exact (nodup_primitivePropsFor? listed).sublist (List.filter_sublist.map _)
      · rintro name present _ added rfl
        obtain ⟨entry, missing, rfl⟩ := List.mem_map.mp added
        obtain ⟨p, old, called⟩ := List.mem_map.mp present
        have absent := (List.mem_filter.mp missing).2
        simp only [Bool.and_eq_true, Bool.not_eq_true', List.any_eq_false, beq_iff_eq] at absent
        exact absent.2 p old called

theorem mem_walk_of_parameter {f param : Tree} (head : (parametersOf f).head? = some param) :
    parameterPattern param ∈ f.walk := by
  have inside : param ∈ f.walk := by
    have listed := List.mem_of_head? head
    rw [parametersOf] at listed
    split at listed
    · rename_i params found
      exact Tree.walk_trans f params param (Tree.mem_walk_of_field? found) (Tree.mem_walk_of_mem_parts listed)
    · exact Tree.mem_walk_of_field? (Option.mem_toList.mp listed)
  rw [parameterPattern]
  split
  · cases found : param.field? .pattern with
    | none => exact inside
    | some pattern => exact Tree.walk_trans f param pattern inside (Tree.mem_walk_of_field? found)
  · exact inside

theorem nodup_parameterProps {root f : Tree} (once : NamesOnce root) (inside : f ∈ root.walk)
    (req : PropsRequest) :
    Yields (fun props => (props.map (·.name)).Nodup) (parameterProps req (parametersOf f)) := by
  rw [parameterProps]
  refine nodup_addPrimitiveProps _ _ _ ?_
  cases head : (parametersOf f).head? with
  | none => exact List.nodup_nil
  | some param =>
    have patternInside := Tree.walk_trans root f _ inside (mem_walk_of_parameter head)
    rw [map_name_congr (map_label_applyInlineTypes _ _ _)]
    exact nodup_patternProps (once.pattern _ patternInside) req.scope

/-! ## Where props come from -/

/-- The props that the function of a component takes out, and those of the primitive it wraps. -/
def takenProps (req : PropsRequest) : List Property :=
  match req.function with
  | some f => ((parameterProps req (parametersOf f)).run []).1
  | none => []

/-- The type that the props of a component are read from: the one called after it if that has any, else, when
none are taken out, the first props type that has any. -/
def propsTypeFor? (root : Tree) (req : PropsRequest) : Option Tree :=
  let hasAny (t : Tree) : Bool := !(declarationProps req.scope t).isEmpty
  let own := (typeDeclarations root).find? fun d => d.fieldText .name == req.component ++ "Props"
  let all := (typeDeclarations root).filter fun d => endsWith "Props" (d.fieldText .name)
  own.filter hasAny <|> if (takenProps req).isEmpty then all.find? hasAny else none

/-- The props of a component as they stand in the source. -/
def sourceProps (root : Tree) (req : PropsRequest) : List Property :=
  match propsTypeFor? root req with
  | some t => declarationProps req.scope t
  | none => takenProps req

theorem parameterProps_eq (req : PropsRequest) {f : Tree} (function : req.function = some f) :
    Yields (· = takenProps req) (parameterProps req (parametersOf f)) := by
  intro noted
  rw [takenProps, function]
  dsimp only
  rw [parameterProps, addPrimitiveProps]
  split
  · rfl
  · dsimp only
    split <;> rfl

theorem ownProps_eq (root : Tree) (req : PropsRequest) :
    Yields (fun props => props = if (declaredProps root req.scope req.component).isEmpty then takenProps req
      else declaredProps root req.scope req.component) (ownProps root req) := by
  rw [ownProps_eq_match]
  cases function : req.function with
  | none =>
    refine Yields.pure ?_
    rw [takenProps, function]
    split
    · rename_i empty
      exact List.isEmpty_iff.mp empty
    · rfl
  | some f =>
    dsimp only
    split
    · exact parameterProps_eq req function
    · exact Yields.pure rfl

theorem anyProps_eq (root : Tree) (scope : VariantScope) :
    anyProps root scope = ((((typeDeclarations root).filter fun d => endsWith "Props" (d.fieldText .name)).find?
      fun t => !(declarationProps scope t).isEmpty).map (declarationProps scope)).getD [] := by
  rw [anyProps, List.find?_map]
  rfl

theorem filter_hasAny (scope : VariantScope) (own : Option Tree) :
    let props := (own.map (declarationProps scope)).getD []
    own.filter (fun t => !(declarationProps scope t).isEmpty) = if props.isEmpty then none else own := by
  cases own with
  | none => rfl
  | some t =>
    dsimp only [Option.map_some, Option.getD_some]
    rw [Option.filter_some]
    cases (declarationProps scope t).isEmpty <;> rfl

theorem collectProps_eq (root : Tree) (req : PropsRequest) :
    Yields (· = sourceProps root req) (collectProps root req) := by
  refine (ownProps_eq root req).bind fun props own => Yields.pure ?_
  rw [own, anyProps_eq, declaredProps, sourceProps, propsTypeFor?, filter_hasAny]
  generalize (typeDeclarations root).find? _ = declared
  generalize List.find? _ _ = first
  by_cases undeclared : ((declared.map (declarationProps req.scope)).getD []).isEmpty
  · rw [if_pos undeclared, if_pos undeclared]
    cases taken : (takenProps req).isEmpty with
    | false => simp
    | true => cases first <;> simp [List.isEmpty_iff.mp taken]
  · rw [if_neg undeclared, if_neg undeclared, if_neg undeclared]
    cases declared with
    | none => exact absurd rfl undeclared
    | some t => rfl

theorem map_name_propsOf (root : Tree) (req : PropsRequest) :
    Yields (fun found => found.1.map (·.name) = (sourceProps root req).map (·.name)) (propsOf root req) := by
  refine (collectProps_eq root req).bind fun props source => ?_
  refine Yields.warned ?_ _ _
  refine Yields.pure ?_
  rw [map_name_congr (map_label_detectState _ _), List.map_map, source]
  rfl

section Request

variable {root : Tree} (once : NamesOnce root) {req : PropsRequest}

include once

theorem nodup_takenProps (inside : ∀ f, req.function = some f → f ∈ root.walk) :
    ((takenProps req).map (·.name)).Nodup := by
  rw [takenProps]
  cases function : req.function with
  | none => exact List.nodup_nil
  | some f => exact nodup_parameterProps once (inside f function) req []

theorem nodup_sourceProps_iff (distinct : req.scope.Distinct)
    (inside : ∀ f, req.function = some f → f ∈ root.walk) :
    ((sourceProps root req).map (·.name)).Nodup ↔
      ∀ t ∈ propsTypeFor? root req, t.kind = .typeAlias → OperandsApart req.scope t := by
  rw [sourceProps]
  -- what is taken out is distinct in any case, so only a type can make a difference
  cases found : propsTypeFor? root req with
  | none => exact iff_of_true (nodup_takenProps once inside) (by simp)
  | some t =>
    have listed : t ∈ typeDeclarations root := by
      rw [propsTypeFor?, Option.orElse_eq_orElse, Option.orElse_eq_or, Option.or_eq_some_iff] at found
      rcases found with own | ⟨-, first⟩
      · exact List.mem_of_find?_eq_some (Option.filter_eq_some_iff.mp own).1
      · split at first
        · exact (List.mem_filter.mp (List.mem_of_find?_eq_some first)).1
        · cases first
    obtain ⟨tInside, declares⟩ := mem_typeDeclarations listed
    simpa using nodup_declarationProps_iff distinct once tInside declares

end Request

/-! ## Components -/

theorem mem_walk_of_renderFunction? {call f : Tree} (render : renderFunction? call = some f) :
    f ∈ call.walk := by
  rw [renderFunction?] at render
  obtain ⟨argument, listed, unwrapped⟩ := List.mem_filterMap.mp (List.mem_of_find?_eq_some render)
  cases found : call.field? .arguments with
  | none =>
    rw [found] at listed
    cases listed
  | some arguments =>
    rw [found] at listed
    have inside : argument ∈ call.walk :=
      Tree.walk_trans call arguments argument (Tree.mem_walk_of_field? found) (Tree.mem_walk_of_mem_parts listed)
    exact Tree.walk_trans call argument f inside (Tree.mem_walk_of_unwrap unwrapped)

theorem mem_walk_of_ofDeclarator? {d f : Tree} {found : Discovered} (declares : ofDeclarator? d = some found)
    (function : found.declared.function? = some f) : f ∈ d.walk := by
  rw [ofDeclarator?] at declares
  obtain ⟨name, -, rest⟩ := Option.bind_eq_some_iff.mp declares
  obtain ⟨written, assigned, rest⟩ := Option.bind_eq_some_iff.mp rest
  obtain ⟨value, unwrapped, rest⟩ := Option.bind_eq_some_iff.mp rest
  obtain ⟨_, -, rest⟩ := Option.bind_eq_some_iff.mp rest
  have inside : value ∈ d.walk :=
    Tree.walk_trans d written value (Tree.mem_walk_of_field? assigned) (Tree.mem_walk_of_unwrap unwrapped)
  dsimp only at rest
  split at rest
  · obtain rfl := Option.some.inj rest
    exact Tree.walk_trans d value f inside (mem_walk_of_renderFunction? function)
  · split at rest
    · obtain rfl := Option.some.inj rest
      cases function
    · split at rest
      · obtain rfl := Option.some.inj rest
        obtain rfl := Option.some.inj function
        exact inside
      · cases rest

theorem mem_walk_of_exportedDeclarations {statement d : Tree} (exported : d ∈ exportedDeclarations statement) :
    d ∈ statement.walk := by
  rw [exportedDeclarations] at exported
  split at exported
  · split at exported
    · rename_i declaration found
      obtain rfl := List.mem_singleton.mp exported
      exact Tree.mem_walk_of_field? found
    · exact Tree.mem_walk_of_mem_parts (List.mem_filter.mp exported).1
  · obtain rfl := List.mem_singleton.mp exported
    exact Tree.mem_walk_self d

/-- The function of a component stands in the source. -/
theorem mem_walk_of_discover {root f : Tree} {found : Discovered} (member : found ∈ discover root)
    (function : found.declared.function? = some f) : f ∈ root.walk := by
  obtain ⟨d, listed, here⟩ := List.mem_flatMap.mp member
  obtain ⟨statement, top, exported⟩ := List.mem_flatMap.mp listed
  have inside : d ∈ root.walk :=
    Tree.walk_trans root statement d (Tree.mem_walk_of_mem_parts top) (mem_walk_of_exportedDeclarations exported)
  have declared : found ∈ (d.parts.filter (·.kind = .declarator)).filterMap ofDeclarator? → f ∈ d.walk := by
    intro member
    obtain ⟨declarator, part, declares⟩ := List.mem_filterMap.mp member
    exact Tree.walk_trans d declarator f (Tree.mem_walk_of_mem_parts (List.mem_filter.mp part).1)
      (mem_walk_of_ofDeclarator? declares function)
  have named : found ∈ (ofFunction? d).toList → f ∈ d.walk := by
    intro member
    rw [ofFunction?] at member
    split at member
    · obtain rfl := List.mem_singleton.mp member
      obtain rfl := Option.some.inj function
      exact Tree.mem_walk_self _
    · cases member
  refine Tree.walk_trans root d f inside ?_
  split at here
  · exact declared here
  · exact declared here
  · exact named here
  · exact named here
  · cases here

def Declared.call? : Declared → Option Tree
  | .reExport _ | .function _ => none
  | .forwardRef call _ => some call

def Discovered.request (shared : Shared) (options : ReadOptions) (found : Discovered) : PropsRequest where
  component := found.name
  function := found.declared.function?
  propsType := found.declared.call?.bind propsTypeArgument?
  scope := scopeOf shared found
  namespaces := namespaceSources shared.imports
  patterns := options.patterns

/-- The type that the props of a component are read from. A name for a part of a primitive has none. -/
def Discovered.propsType? (root : Tree) (shared : Shared) (options : ReadOptions) (found : Discovered) :
    Option Tree :=
  match found.declared with
  | .reExport _ => none
  | _ => propsTypeFor? root (found.request shared options)

theorem build_names (root : Tree) (shared : Shared) (options : ReadOptions) {found : Discovered}
    {function call : Option Tree} (isFunction : found.declared.function? = function)
    (isCall : found.declared.call? = call) :
    Yields (fun c => c.props.map (·.name) = (sourceProps root (found.request shared options)).map (·.name))
      (componentOf.build root shared options found function call) := by
  subst isFunction isCall
  rw [componentOf.build]
  refine Yields.after fun refForward => ?_
  have props := map_name_propsOf root (found.request shared options)
  dsimp only
  split
  · refine Yields.after fun nodes => Yields.warned ?_ _ _
    exact props.bind fun props named => Yields.pure named
  · refine Yields.after fun nodes => Yields.warned ?_ _ _
    exact props.bind fun props named => Yields.pure named

theorem scopeOf_distinct {shared : Shared} (axes : ∀ entry ∈ shared.variantConfigs, entry.2.axes.Nodup)
    (found : Discovered) : (scopeOf shared found).Distinct :=
  ⟨known_of_get? _ _, axes⟩

theorem componentOf_nodup_iff {root : Tree} (once : NamesOnce root) {shared : Shared}
    (axes : ∀ entry ∈ shared.variantConfigs, entry.2.axes.Nodup) (options : ReadOptions) {found : Discovered}
    (member : found ∈ discover root) :
    Yields (fun c => (c.props.map (·.name)).Nodup ↔ ∀ t ∈ found.propsType? root shared options,
      t.kind = .typeAlias → OperandsApart (scopeOf shared found) t) (componentOf root shared options found) := by
  have inside : ∀ f, (found.request shared options).function = some f → f ∈ root.walk :=
    fun f function => mem_walk_of_discover member function
  have source : ((sourceProps root (found.request shared options)).map (·.name)).Nodup ↔
      ∀ t ∈ propsTypeFor? root (found.request shared options), t.kind = .typeAlias →
        OperandsApart (scopeOf shared found) t :=
    nodup_sourceProps_iff once (scopeOf_distinct axes found) inside
  rw [componentOf, Discovered.propsType?]
  cases declared : found.declared with
  | reExport target => exact Yields.pure (iff_of_true List.nodup_nil (by simp))
  | function f =>
    intro noted
    rw [build_names root shared options (by rw [declared]; rfl) (by rw [declared]; rfl) noted]
    exact source
  | forwardRef call render =>
    intro noted
    rw [build_names root shared options (by rw [declared]; rfl) (by rw [declared]; rfl) noted]
    exact source

/-- In a tree that says no name twice in one pattern or body, a component has each of its props once
exactly if they are not read from an alias where an object type declares a name that an operand in front of
it stands for. -/
theorem analyze_props_nodup_iff {root : Tree} (once : NamesOnce root) (options : ReadOptions) :
    List.Forall₂ (fun found c => (c.props.map (·.name)).Nodup ↔
      ∀ t ∈ found.propsType? root (analyze root options).shared options, t.kind = .typeAlias →
        OperandsApart (scopeOf (analyze root options).shared found) t)
      (discover root) (analyze root options).components := by
  have each : Yields (fun built => List.Forall₂ (fun found c => (c.props.map (·.name)).Nodup ↔
      ∀ t ∈ found.propsType? root built.1 options, t.kind = .typeAlias →
        OperandsApart (scopeOf built.1 found) t) (discover root) built.2) (componentsOf root options) := by
    refine (variantConfigsOf_all variantWith_axes root).bind fun configs axes => ?_
    refine (Yields.mapM_forall₂ _ fun found member => componentOf_nodup_iff once ?_ options member).bind ?_
    · exact axes
    · exact fun components read => Yields.pure read
  exact each []

/-- The same of a source that parses to such a tree. -/
theorem props_nodup_iff {text : String} {options : ReadOptions} {path : Option String} {root : Tree}
    {source : ParsedSource} (parsed : parse? text = some root)
    (read : readSource text options path = .ok source) (once : NamesOnce root) :
    source.components = [] ∨ List.Forall₂ (fun found c => (c.props.map (·.name)).Nodup ↔
      ∀ t ∈ found.propsType? root source.shared options, t.kind = .typeAlias →
        OperandsApart (scopeOf source.shared found) t) (discover root) source.components := by
  rcases eq_analyze_of_read parsed read with blank | rfl
  · exact .inl blank
  · exact .inr (analyze_props_nodup_iff once options)

instance (root : Tree) : Decidable (NamesOnce root) :=
  decidable_of_iff ((∀ t ∈ root.walk, t.kind = .objectPattern → (t.parts.filterMap entryName?).Nodup) ∧
      (∀ t ∈ root.walk, t.kind = .interface → ∀ body ∈ t.field? .body, (memberNames body).Nodup) ∧
      ∀ t ∈ root.walk, t.kind = .objectType → (memberNames t).Nodup)
    ⟨fun ⟨pattern, body, object⟩ => ⟨pattern, body, object⟩,
      fun once => ⟨once.pattern, once.body, once.object⟩⟩

instance (scope : VariantScope) (front behind : Tree) : Decidable (Apart scope front behind) :=
  inferInstanceAs (Decidable (behind.kind = .objectType →
    ∀ name ∈ operandNames scope front, name ∉ memberNames behind))

instance (scope : VariantScope) (t : Tree) : Decidable (OperandsApart scope t) :=
  inferInstanceAs (Decidable (∀ value ∈ t.field? .value, (intersectionParts value).Pairwise (Apart scope)))

/-- An alias of two object types that have a member in common. -/
def overlapSource : String :=
  "type TagProps = \x7b label: string \x7d & \x7b label: string \x7d\n" ++
    "const Tag = (\x7b label \x7d: TagProps) => <b>\x7blabel\x7d</b>"

theorem read_overlap : ∃ root found t, parse? overlapSource = some root ∧
    readSource overlapSource {} none = .ok (analyze root {}) ∧ discover root = [found] ∧
    found.propsType? root (analyze root {}).shared {} = some t ∧ (analyze root {}).components ≠ [] ∧
    NamesOnce root ∧ t.kind = .typeAlias ∧ ¬ OperandsApart (scopeOf (analyze root {}).shared found) t := by
  have chars : overlapSource = String.ofList _ := append_eq_ofList rfl rfl
  have checked : ((parse? overlapSource).any fun root => (discover root).length = 1 ∧
      (discover root).any fun found => (found.propsType? root (analyze root {}).shared {}).any fun t =>
        (analyze root {}).components ≠ [] ∧ NamesOnce root ∧ t.kind = .typeAlias ∧
          ¬ OperandsApart (scopeOf (analyze root {}).shared found) t) = true := by
    rw [chars, parse?_ofList]
    decide +kernel
  obtain ⟨root, parsed, checked⟩ := (Option.any_eq_true _ _).mp checked
  obtain ⟨single, checked⟩ := of_decide_eq_true checked
  obtain ⟨found, listed, checked⟩ := List.any_eq_true.mp checked
  obtain ⟨t, props, checked⟩ := (Option.any_eq_true _ _).mp checked
  obtain ⟨other, only⟩ := List.length_eq_one_iff.mp single
  obtain rfl := List.mem_singleton.mp (only ▸ listed)
  have read : readSource overlapSource {} none = .ok (analyze root {}) :=
    readSource_of_parsed parsed (by rw [chars, String.toList_ofList]; decide +kernel) {} none
  exact ⟨root, found, t, parsed, read, only, props, of_decide_eq_true checked⟩

theorem props_nodup_iff_overlap : ∃ root source, parse? overlapSource = some root ∧ NamesOnce root ∧
    readSource overlapSource {} none = .ok source ∧
    ∃ c, source.components = [c] ∧ ¬ (c.props.map (·.name)).Nodup := by
  obtain ⟨root, found, t, parsed, read, single, props, some, once, isAlias, meet⟩ := read_overlap
  refine ⟨root, _, parsed, once, read, ?_⟩
  rcases props_nodup_iff parsed read once with none | each
  · exact absurd none some
  · rw [single] at each
    obtain ⟨c, rest, distinct, nothing, components⟩ := List.forall₂_cons_left_iff.mp each
    rw [List.forall₂_nil_left_iff.mp nothing] at components
    refine ⟨c, components, ?_⟩
    intro once
    exact meet (distinct.mp once t props isAlias)

end Recast.Analysis
