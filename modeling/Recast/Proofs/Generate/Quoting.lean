import Recast.Generate.Svelte.Component
import Recast.Generate.Variant
import Recast.Generate.Vue.Component
import Recast.Proofs.Normalize.Indent
import Recast.Proofs.Text.Token

/-!
# Texts between the quotes of a target

A default that is a literal and the texts of a variant table keep their contents and get the quotes of
the target. A definition is a list of tokens: code, and literals with their delimiters. Each literal has
the value that its contents have in the source, unless they hold something that ends it early.
-/

set_option autoImplicit false

namespace Recast.Generate

open Recast.ClassExpr (isQuote)
open Recast.Literal
open Recast.Text

def quoteOf : Target → String
  | .svelte => Svelte.quote
  | .vue => Vue.quote

def delimiterOf : Target → Char
  | .svelte => '"'
  | .vue => '\''

theorem quoteOf_eq (target : Target) : quoteOf target = String.singleton (delimiterOf target) := by
  cases target <;> rfl

theorem isQuote_delimiterOf (target : Target) : isQuote (delimiterOf target) = true := by
  cases target <;> rfl

/-! ## Defaults -/

theorem stripChars_delimited {q : Char} (quote : isQuote q = true) (cs : List Char) :
    stripChars (delimited q cs) = delimited q cs := by
  have blank : isBlank q = false := by
    rcases isQuote_iff.mp quote with rfl | rfl | rfl <;> rfl
  rw [stripChars, trimWhile, delimited, List.dropWhile_cons_of_neg (by simp [blank])]
  simp [dropEndWhile, blank]

/-- A template stays as it is, the contents of a string get other quotes. -/
theorem formatDefault_delimited {q : Char} (quote : isQuote q = true) (cs : List Char) (new : String) :
    formatDefault (some (String.ofList (delimited q cs))) new =
      some (if q = '`' then String.ofList (delimited q cs) else new ++ String.ofList cs ++ new) := by
  have ends : (delimited q cs).head? = some q ∧ (delimited q cs).getLast? = some q := by
    constructor
    · rfl
    · rw [delimited, ← List.cons_append, List.getLast?_concat]
  have inside : ((delimited q cs).drop 1).dropLast = cs := by simp [delimited]
  have long : 2 ≤ (delimited q cs).length := by simp [delimited]
  have kind := isQuote_iff.mp quote
  rw [formatDefault]
  simp only [Option.map_some, String.toList_ofList, stripChars_delimited quote, ends, Option.bind_eq_bind,
    Option.bind_some]
  rw [if_pos ⟨long, trivial, kind⟩, inside]
  split <;> rfl

/-! ## Variant tables -/

/-- Texts that are spelled by tokens, one by one. -/
def Spells (texts : List String) (parts : List (List Token)) : Prop :=
  texts.map String.toList = parts.map spelled

namespace Spells

variable {texts texts' : List String} {parts parts' : List (List Token)}

theorem single {text : String} {part : List Token} (same : text.toList = spelled part) :
    Spells [text] [part] := congrArg (fun cs => [cs]) same

theorem append (front : Spells texts parts) (back : Spells texts' parts') :
    Spells (texts ++ texts') (parts ++ parts') := by
  rw [Spells, List.map_append, List.map_append, front, back]

theorem map {α : Type} {f : α → String} {g : α → List Token} (same : ∀ a, (f a).toList = spelled (g a))
    (xs : List α) : Spells (xs.map f) (xs.map g) := by
  rw [Spells, List.map_map, List.map_map]
  exact List.map_congr_left fun a _ => same a

theorem flatMap {α : Type} {f : α → List String} {g : α → List (List Token)}
    (same : ∀ a, Spells (f a) (g a)) (xs : List α) : Spells (xs.flatMap f) (xs.flatMap g) := by
  induction xs with
  | nil => rfl
  | cons x xs ih => exact (same x).append ih

theorem join (all : Spells texts parts) (sep : String) :
    (Text.join sep texts).toList = spelled (separated sep parts) := by
  rw [spelled_separated, Normalize.toList_join, all]

end Spells

def keyToken (q : Char) (key : String) : Token := if isPlainKey key then .code key else .literal q key

def axisTokens (q : Char) (axis : String × Assoc String) : List (List Token) :=
  [[Token.code ("      " ++ axis.1 ++ ": \x7b")]]
    ++ axis.2.map (fun entry =>
      [Token.code "        ", keyToken q entry.1, .code ": ", .literal q entry.2, .code ","])
    ++ [[Token.code "      \x7d,"]]

def conditionTokens (q : Char) : Condition → List Token
  | .is value => [.literal q value]
  | .isOneOf values => [Token.code "["] ++ separated ", " (values.map ([.literal q ·])) ++ [Token.code "]"]

def compoundTokens (q : Char) (c : CompoundVariant) : List Token :=
  [Token.code "      \x7b "]
    ++ separated ", " (c.conditions.map (fun entry => .code (entry.1 ++ ": ") :: conditionTokens q entry.2)
      ++ [[Token.code "class: ", .literal q c.classes]])
    ++ [Token.code " \x7d,"]

def compoundLineTokens (q : Char) (compounds : List CompoundVariant) : List (List Token) :=
  if compounds.isEmpty then []
  else [[Token.code "    compoundVariants: ["]] ++ compounds.map (compoundTokens q) ++ [[Token.code "    ],"]]

def baseDelimiter (q : Char) (config : VariantConfig) : Char :=
  if contains "$\x7b" config.baseClasses then '`' else q

/-- The statement that defines a variant configuration, token by token. -/
def definitionTokens (q : Char) (config : VariantConfig) : List Token :=
  separated "\n" (
    [[Token.code ("const " ++ config.name ++ " = cva(")],
      [.code "  ", .literal (baseDelimiter q config) config.baseClasses, .code ","],
      [.code "  \x7b"], [.code "    variants: \x7b"]]
    ++ config.variants.flatMap (axisTokens q)
    ++ [[Token.code "    \x7d,"]]
    ++ compoundLineTokens q config.compounds
    ++ [[Token.code "    defaultVariants: \x7b"]]
    ++ config.defaults.map (fun entry => [Token.code ("      " ++ entry.1 ++ ": "), .literal q entry.2, .code ","])
    ++ [[Token.code "    \x7d,"], [.code "  \x7d"], [.code ");"]])

/-- The quoted texts of an axis. -/
def axisTexts (axis : String × Assoc String) : List String :=
  axis.2.flatMap fun entry => if isPlainKey entry.1 then [entry.2] else [entry.1, entry.2]

def conditionTexts : Condition → List String
  | .is value => [value]
  | .isOneOf values => values

def compoundTexts (c : CompoundVariant) : List String :=
  c.conditions.flatMap (conditionTexts ·.2) ++ [c.classes]

/-- The quoted texts of a definition behind its base classes. -/
def definitionTexts (config : VariantConfig) : List String :=
  config.variants.flatMap axisTexts ++ config.compounds.flatMap compoundTexts ++ config.defaults.map (·.2)

theorem axisLines_spells (q : Char) (axis : String × Assoc String) :
    Spells (axisLines (String.singleton q) axis) (axisTokens q axis) := by
  refine .append (.append (.single (by simp)) (.map (fun entry => ?_) axis.2)) (.single (by simp))
  by_cases plain : isPlainKey entry.1 = true
  · simp [keyToken, delimited, plain]
  · simp [keyToken, delimited, plain]

theorem conditionText_eq (q : Char) (condition : Condition) :
    (conditionText (String.singleton q) condition).toList = spelled (conditionTokens q condition) := by
  cases condition with
  | is value => simp [conditionText, conditionTokens, delimited]
  | isOneOf values =>
    have each (value : String) : (String.singleton q ++ value ++ String.singleton q).toList =
        spelled [.literal q value] := by simp [delimited]
    rw [conditionText, conditionTokens, String.toList_append, String.toList_append,
      (Spells.map each values).join]
    simp

theorem compoundLine_eq (q : Char) (c : CompoundVariant) :
    (compoundLine (String.singleton q) c).toList = spelled (compoundTokens q c) := by
  have entry (e : String × Condition) : (e.1 ++ ": " ++ conditionText (String.singleton q) e.2).toList =
      spelled (.code (e.1 ++ ": ") :: conditionTokens q e.2) := by simp [conditionText_eq]
  have classes : ("class: " ++ String.singleton q ++ c.classes ++ String.singleton q).toList =
      spelled [.code "class: ", .literal q c.classes] := by simp [delimited]
  rw [compoundLine, compoundTokens, String.toList_append, String.toList_append,
    ((Spells.map entry c.conditions).append (.single classes)).join]
  simp

theorem compoundLines_spells (q : Char) (compounds : List CompoundVariant) :
    Spells (compoundLines (String.singleton q) compounds) (compoundLineTokens q compounds) := by
  rw [compoundLines, compoundLineTokens]
  split
  · rfl
  · exact .append (.append (.single (by simp)) (.map (compoundLine_eq q) compounds)) (.single (by simp))

theorem toList_variantDefinition (q : Char) (config : VariantConfig) :
    (variantDefinition config (String.singleton q)).toList = spelled (definitionTokens q config) := by
  have base : baseQuote (String.singleton q) config = String.singleton (baseDelimiter q config) := by
    rw [baseQuote, baseDelimiter]
    split <;> rfl
  rw [variantDefinition, definitionTokens, base]
  refine Spells.join ?_ "\n"
  refine .append (.append (.append (.append (.append (.append ?_ (.flatMap (axisLines_spells q) _)) ?_)
    (compoundLines_spells q _)) ?_) (.map (fun entry => ?_) _)) ?_
  all_goals simp [Spells, delimited]

theorem flatMap_literals {α : Type} {f : α → List (Char × String)} {g : α → List String} {q : Char}
    (same : ∀ a, f a = (g a).map (q, ·)) (xs : List α) : xs.flatMap f = (xs.flatMap g).map (q, ·) := by
  rw [List.map_flatMap, funext same]

theorem literals_axisTokens (q : Char) (axis : String × Assoc String) :
    (axisTokens q axis).flatMap literals = (axisTexts axis).map (q, ·) := by
  have entry (e : String × String) :
      literals [.code "        ", keyToken q e.1, .code ": ", .literal q e.2, .code ","] =
        (if isPlainKey e.1 then [e.2] else [e.1, e.2]).map (q, ·) := by
    by_cases plain : isPlainKey e.1 = true
    · simp [keyToken, plain]
    · simp [keyToken, plain]
  rw [axisTexts, ← flatMap_literals entry]
  simp [axisTokens, List.flatMap_map]

theorem literals_conditionTokens (q : Char) (condition : Condition) :
    literals (conditionTokens q condition) = (conditionTexts condition).map (q, ·) := by
  cases condition with
  | is value => rfl
  | isOneOf values =>
    rw [conditionTexts, List.map_eq_flatMap]
    simp [conditionTokens, literals_separated, List.flatMap_map]

theorem literals_compoundTokens (q : Char) (c : CompoundVariant) :
    literals (compoundTokens q c) = (compoundTexts c).map (q, ·) := by
  have conditions := flatMap_literals (fun e : String × Condition => literals_conditionTokens q e.2) c.conditions
  simp [compoundTokens, compoundTexts, literals_separated, List.flatMap_map, conditions]

theorem literals_compoundLineTokens (q : Char) (compounds : List CompoundVariant) :
    (compoundLineTokens q compounds).flatMap literals = (compounds.flatMap compoundTexts).map (q, ·) := by
  have each := flatMap_literals (literals_compoundTokens q) compounds
  rw [compoundLineTokens]
  split
  · simp_all
  · simp [List.flatMap_map, each]

theorem literals_definitionTokens (q : Char) (config : VariantConfig) :
    literals (definitionTokens q config) =
      (baseDelimiter q config, config.baseClasses) :: (definitionTexts config).map (q, ·) := by
  have axes := flatMap_literals (literals_axisTokens q) config.variants
  have defaults : config.defaults.flatMap (fun entry => [(q, entry.2)]) = (config.defaults.map (·.2)).map (q, ·) := by
    rw [List.map_map, List.map_eq_flatMap]
    rfl
  rw [definitionTokens, literals_separated, definitionTexts]
  simp only [List.flatMap_append, List.flatMap_assoc, axes, literals_compoundLineTokens, List.map_append]
  simp [List.flatMap_map, defaults]

/-! ## Values -/

/-- Of a literal of the source, a default and every text of a variant table between the quotes of a target:
a default stays a literal of the same value, and so does each text that is the contents of one, exactly if
the contents hold nothing that ends a literal between the new delimiters. -/
theorem requoted_value (target : Target) {q : Char} {cs : List Char} {v : List Nat}
    (quote : isQuote q = true) (value : units? q cs = some v) :
    (∃ out, formatDefault (some (String.ofList (delimited q cs))) (quoteOf target) = some out ∧
      value? out.toList = if q ≠ '`' ∧ blocked (delimiterOf target) cs = true then none else some v) ∧
    ∀ config : VariantConfig,
      (variantDefinition config (quoteOf target)).toList =
        spelled (definitionTokens (delimiterOf target) config) ∧
      literals (definitionTokens (delimiterOf target) config) =
        (baseDelimiter (delimiterOf target) config, config.baseClasses) ::
          (definitionTexts config).map (delimiterOf target, ·) ∧
      ∀ d, (d, String.ofList cs) ∈ literals (definitionTokens (delimiterOf target) config) →
        value? (delimited d cs) = if blocked d cs = true then none else some v := by
  have quote' := isQuote_delimiterOf target
  rw [quoteOf_eq]
  constructor
  · refine ⟨_, formatDefault_delimited quote cs _, ?_⟩
    by_cases template : q = '`'
    · rw [if_pos template, if_neg (fun h => h.1 template), String.toList_ofList, value?_delimited quote, value]
    · have text : (String.singleton (delimiterOf target) ++ String.ofList cs
          ++ String.singleton (delimiterOf target)).toList = delimited (delimiterOf target) cs := by
        simp [delimited]
      rw [if_neg template, text, value?_delimited quote', units?_delimited quote quote' value]
      simp [template]
  · intro config
    refine ⟨toList_variantDefinition _ config, literals_definitionTokens _ config, ?_⟩
    intro d member
    have quoteD : isQuote d = true := by
      rw [literals_definitionTokens] at member
      rcases List.mem_cons.mp member with base | text
      · obtain rfl : d = baseDelimiter (delimiterOf target) config := congrArg Prod.fst base
        rw [baseDelimiter]
        split
        · rfl
        · exact quote'
      · obtain ⟨_, -, same⟩ := List.mem_map.mp text
        cases same
        exact quote'
    rw [value?_delimited quoteD, units?_delimited quote quoteD value]

/-- An apostrophe ends a string between apostrophes, as a default and as a text of a table. -/
theorem requoted_value_apostrophe :
    units? '"' "it's".toList = some [105, 116, 39, 115] ∧
    (∃ out, formatDefault (some "\"it's\"") (quoteOf .vue) = some out ∧ value? out.toList = none) ∧
    ('\'', "it's") ∈ literals (definitionTokens '\'' { name := "hint", defaults := [("tone", "it's")] }) ∧
    value? (delimited '\'' "it's".toList) = none := by
  have value : units? '"' "it's".toList = some [105, 116, 39, 115] := by cbv
  have ends : blocked '\'' "it's".toList = true := by decide
  obtain ⟨⟨out, written, read⟩, definition⟩ := requoted_value .vue (by decide) value
  have member : ('\'', "it's") ∈
      literals (definitionTokens '\'' { name := "hint", defaults := [("tone", "it's")] }) := by
    rw [literals_definitionTokens]
    simp [definitionTexts]
  refine ⟨value, ⟨out, written, ?_⟩, member, ?_⟩
  · rw [read, if_pos ⟨by decide, ends⟩]
  · rw [(definition _).2.2 '\'' member, if_pos ends]

end Recast.Generate
