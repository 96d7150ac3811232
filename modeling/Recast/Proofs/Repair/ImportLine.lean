import Recast.Proofs.Repair.IconSources

/-!
# Lines that import names

What the rules that clean imports make of a line that imports names from a module, as generators write it: they keep
the names and change the module, whatever follows the line.
-/

set_option autoImplicit false

namespace Recast.Repair

open Recast.Text

/-! ## Import lines -/

/-- A module that an import can name. -/
structure IsModule (source : List Char) : Prop where
  nonempty : source ≠ []
  unquoted : Unquoted source
  single : '\n' ∉ source

/-- A line that imports names from a module. -/
structure ImportLine where
  indent : List Char
  names : List Char
  quote : Char
  source : List Char
  deriving DecidableEq

namespace ImportLine

def front (l : ImportLine) : List Char :=
  l.indent ++ ("import".toList ++ (" \x7b ".toList ++ (l.names ++ " \x7d ".toList)))

def clause (l : ImportLine) : FromClause := ⟨"from ".toList, l.quote, l.source⟩

@[simp] theorem keyword_clause (l : ImportLine) : l.clause.keyword = "from ".toList := rfl
@[simp] theorem quote_clause (l : ImportLine) : l.clause.quote = l.quote := rfl
@[simp] theorem source_clause (l : ImportLine) : l.clause.source = l.source := rfl

theorem text_clause (l : ImportLine) : l.clause.text = "from ".toList ++ l.quote :: (l.source ++ [l.quote]) := rfl

/-- What stands in front of the quoted module. -/
def beforeQuote (l : ImportLine) : List Char := l.front ++ "from ".toList

/-- The line without the line feed. -/
def row (l : ImportLine) : List Char := l.front ++ (l.clause.text ++ [';'])

def text (l : ImportLine) : List Char := l.row ++ ['\n']

/-- The line with another module. -/
def moved (f : List Char → List Char) (l : ImportLine) : ImportLine := { l with source := f l.source }

theorem row_eq (l : ImportLine) : l.row = l.beforeQuote ++ l.quote :: (l.source ++ l.quote :: [';']) := by
  rw [row, beforeQuote, text_clause]
  simp only [List.append_assoc, List.cons_append, List.nil_append]

theorem text_append (l : ImportLine) (rest : List Char) :
    l.text ++ rest = l.front ++ (l.clause.text ++ (";\n".toList ++ rest)) := by
  simp [text, row]

theorem text_append_eq (l : ImportLine) (rest : List Char) :
    l.text ++ rest = l.beforeQuote ++ l.quote :: (l.source ++ l.quote :: (";\n".toList ++ rest)) := by
  simp [text, row_eq]

theorem text_moved (f : List Char → List Char) (l : ImportLine) :
    (l.moved f).text = l.beforeQuote ++ l.quote :: (f l.source ++ l.quote :: ";\n".toList) := by
  simp [text, row_eq, moved, beforeQuote, front]

end ImportLine

/-- A character of a list of names. -/
def isListChar (c : Char) : Bool := isWord c || c == ',' || c == ' '

/-- A line as generators write it. -/
structure ImportLine.IsWritten (l : ImportLine) : Prop where
  indent : ∀ c ∈ l.indent, isIndent c = true
  names : ∀ c ∈ l.names, isListChar c = true
  kept : ∀ name ∈ listed (' ' :: (l.names ++ [' '])),
    name ≠ "VariantProps".toList ∧ name ≠ "type VariantProps".toList
  quote : isPlainQuote l.quote = true
  source : IsModule l.source

namespace ImportLine.IsWritten

variable {l : ImportLine} (written : l.IsWritten)

include written

theorem moved {f : List Char → List Char} (module : IsModule (f l.source)) : (l.moved f).IsWritten :=
  { written with source := module }

theorem not_mem_front {c : Char} (notIndent : isIndent c = false) (notName : isListChar c = false)
    (other : c ∉ "import \x7b \x7d ".toList) : c ∉ l.front := by
  intro inside
  simp only [ImportLine.front, List.mem_append] at inside
  rcases inside with inIndent | here | here | inNames | here
  · exact absurd (written.indent c inIndent) (by simp [notIndent])
  · exact other (by simp_all)
  · exact other (by simp_all)
  · exact absurd (written.names c inNames) (by simp [notName])
  · exact other (by simp_all)

theorem unquoted_front : Unquoted l.front := by
  intro c inside
  cases quote : isPlainQuote c with
  | false => rfl
  | true =>
    rw [isPlainQuote, Bool.or_eq_true, beq_iff_eq, beq_iff_eq] at quote
    rcases quote with rfl | rfl <;> exact absurd inside (written.not_mem_front (by decide) (by decide) (by decide))

theorem unquoted_beforeQuote : Unquoted l.beforeQuote := written.unquoted_front.append (by decide)

theorem isClause : l.clause.IsClause where
  keyword := ⟨[' '], fun _ inside => List.mem_singleton.mp inside ▸ rfl, rfl⟩
  quote := written.quote
  nonempty := written.source.nonempty
  unquoted := written.source.unquoted

theorem quote_not_mem {text : List Char} (unquoted : Unquoted text) : l.quote ∉ text := fun inside =>
  Bool.false_ne_true ((unquoted _ inside).symm.trans written.quote)

theorem quote_ne {c : Char} (plain : isPlainQuote c = false) : l.quote ≠ c := by
  rintro rfl
  exact Bool.false_ne_true (plain.symm.trans written.quote)

theorem single_row : '\n' ∉ l.row := by
  have inFront := written.not_mem_front (c := '\n') (by decide) (by decide) (by decide)
  have quote := written.quote_ne (c := '\n') (by decide)
  simp [ImportLine.row_eq, ImportLine.beforeQuote, inFront, quote.symm, written.source.single]

end ImportLine.IsWritten

/-- What follows the keyword. -/
def ImportLine.behindImport (l : ImportLine) (rest : List Char) : List Char :=
  " \x7b ".toList ++ (l.names ++ (" \x7d ".toList ++ (l.clause.text ++ (";\n".toList ++ rest))))

/-! ## Rules that start lines -/

/-- A rule that finds something only behind a keyword at the start of a line. -/
def NeedsKeyword (rule : Rule (List Char)) (keyword : String) : Prop :=
  ∀ previous cs, lineKeyword? keyword previous cs = none → rule previous cs = none

theorem NeedsKeyword.startsLines {rule : Rule (List Char)} {keyword : String} (needs : NeedsKeyword rule keyword) :
    StartsLines rule := fun previous cs inside =>
  needs previous cs (by rw [lineKeyword?, inside, if_neg Bool.false_ne_true])

theorem needs_primitivesImport : NeedsKeyword primitivesImport "import" := fun previous cs none => by
  rw [primitivesImport, none]
  rfl

theorem needs_primitiveAlias : NeedsKeyword primitiveAlias "const" := fun previous cs none => by
  rw [primitiveAlias, none]
  rfl

theorem needs_variantPropsImport : NeedsKeyword variantPropsImport "import" := fun previous cs none => by
  rw [variantPropsImport, none]
  rfl

section Line

variable {l : ImportLine} (written : l.IsWritten)

include written

theorem lineKeyword?_text (keyword : String) (previous : Option Char) (rest : List Char) :
    lineKeyword? keyword previous (l.text ++ rest) =
      if atLineStart previous then after? keyword.toList ("import".toList ++ l.behindImport rest) else none := by
  have text : l.text ++ rest = l.indent ++ ("import".toList ++ l.behindImport rest) := by
    simp [l.text_append, ImportLine.front, ImportLine.behindImport]
  rw [lineKeyword?, text, dropWhile_append_of_head written.indent rfl]

theorem takes_primitivesImport_text : Takes primitivesImport l.text l.text := by
  refine needs_primitivesImport.startsLines.takes written.single_row fun previous rest => ?_
  rw [List.append_cons, ← ImportLine.text, primitivesImport, lineKeyword?_text written]
  cases atLineStart previous <;> rfl

theorem takes_primitiveAlias_text : Takes primitiveAlias l.text l.text := by
  refine needs_primitiveAlias.startsLines.takes written.single_row fun previous rest => ?_
  rw [List.append_cons, ← ImportLine.text, primitiveAlias, lineKeyword?_text written]
  cases atLineStart previous <;> rfl

/-- The type of variant props is not among the names, so they are all kept. -/
theorem variantPropsImport_text {previous : Option Char} (start : atLineStart previous = true) (rest : List Char) :
    variantPropsImport previous (l.text ++ rest) = some (l.text, rest) := by
  have keyword : lineKeyword? "import" previous (l.text ++ rest) = some (l.behindImport rest) := by
    rw [lineKeyword?_text written, start, if_pos rfl, after?_append]
  let behind := l.clause.text ++ (";\n".toList ++ rest)
  let inside := ' ' :: (l.names ++ [' '])
  have braces : afterBlanks? (l.behindImport rest) = some ('\x7b' :: (inside ++ '\x7d' :: ' ' :: behind)) := by
    have shape : l.behindImport rest = ' ' :: '\x7b' :: (inside ++ '\x7d' :: ' ' :: behind) := by
      simp [ImportLine.behindImport, inside, behind]
    rw [shape]
    rfl
  have closed : '\x7d' ∉ inside := by
    have outside : '\x7d' ∉ l.names := fun member => absurd (written.names _ member) (by decide)
    simp [inside, outside]
  have cut := cut?_singleton_append closed (' ' :: behind)
  have source : afterWord? "from" (' ' :: behind) =
      some (' ' :: l.quote :: (l.source ++ l.quote :: (";\n".toList ++ rest))) := by
    have shape : behind = "from ".toList ++ l.quote :: (l.source ++ l.quote :: (";\n".toList ++ rest)) := by
      simp [behind, ImportLine.text_clause]
    rw [shape]
    rfl
  have quoted : quotedText? (l.quote :: (l.source ++ l.quote :: (";\n".toList ++ rest))) =
      some (l.quote, l.source, ";\n".toList ++ rest) :=
    quotedText?_eq_some_iff.mpr
      ⟨l.quote, written.quote, written.quote, written.source.nonempty, written.source.unquoted, rfl⟩
  have blank : isBlank l.quote = false := isBlank_eq_false_of_isPlainQuote written.quote
  have kept : (listed inside).filter
      (fun name => decide (name ≠ "VariantProps".toList ∧ name ≠ "type VariantProps".toList)) = listed inside :=
    List.filter_eq_self.mpr fun name member => decide_eq_true (written.kept name member)
  have other : after? "type".toList ('\x7b' :: (inside ++ '\x7d' :: ' ' :: behind)) = none := rfl
  have opened : after? ['\x7b'] ('\x7b' :: (inside ++ '\x7d' :: ' ' :: behind)) =
      some (inside ++ '\x7d' :: ' ' :: behind) := rfl
  have unblank : (' ' :: l.quote :: (l.source ++ l.quote :: (";\n".toList ++ rest))).dropWhile isBlank =
      l.quote :: (l.source ++ l.quote :: (";\n".toList ++ rest)) := by
    rw [List.dropWhile_cons_of_pos (by decide), List.dropWhile_cons_of_neg (by simp [blank])]
  have ended : skipStatementEnd (";\n".toList ++ rest) = rest := rfl
  simp only [variantPropsImport, keyword, braces, other, opened, cut, source, quoted, unblank, ended, kept,
    Option.bind_eq_bind, Option.bind_some, Option.bind_none, Option.getD_none, if_pos, readPart_append]
  rfl

theorem takes_variantPropsImport_text : Takes variantPropsImport l.text l.text := by
  intro previous rest start
  have nonempty : l.text ≠ [] := by simp [ImportLine.text]
  rw [substituteBehind_of_some nonempty (variantPropsImport_text written start rest), ImportLine.text, lastOr_concat]

/-! ## Rules that change modules -/

theorem takes_iconSource_text (target : Target) :
    Takes (iconSource target) l.text (l.moved (counterpart target)).text := by
  intro previous rest _
  let scanned := scan (fun c => [c]) fun q source => counterpart target source ++ [q]
  have bounded : (lastOr previous l.front).any isWord = false := by
    have last : l.front =
        (l.indent ++ ("import".toList ++ (" \x7b ".toList ++ (l.names ++ " \x7d".toList)))) ++ [' '] := by
      simp [ImportLine.front]
    rw [last, lastOr_concat]
    decide
  have front : Silent fromClause previous l.front (l.clause.text ++ (";\n".toList ++ rest)) := by
    have silent : Silent fromClause previous l.front
        ("from ".toList ++ l.quote :: (l.source ++ l.quote :: (";\n".toList ++ rest))) :=
      silent_front written.unquoted_beforeQuote written.quote written.isClause.keyword previous
    simpa [ImportLine.text_clause] using silent
  have behind : Silent fromClause none ";\n".toList rest := ⟨rfl, rfl, trivial⟩
  have ended : scanned none (";\n".toList ++ rest) = ";\n".toList ++ scanned (some '\n') rest := by
    have passed := scan_of_silent (fun c => [c]) (fun q source => counterpart target source ++ [q]) behind
    rwa [List.flatMap_singleton'] at passed
  rw [substituteBehind_iconSource, substituteBehind_iconSource, ImportLine.text_append, scan_of_silent _ _ front,
    scan_of_clause _ _ bounded written.isClause, List.flatMap_singleton', List.flatMap_singleton']
  change l.front ++ (_ ++ (_ ++ scanned none _)) = _ ++ scanned (some '\n') rest
  rw [ended]
  simp [ImportLine.text_moved, ImportLine.beforeQuote]

end Line

/-- The module with the path under which the target keeps helpers. -/
def helperModule (source : List Char) : List Char :=
  match after? "@/lib/".toList source with
  | some inside => "$lib/".toList ++ inside
  | none => source

theorem helperPath_eq_none_of_plain {c : Char} (plain : isPlainQuote c = false) (previous : Option Char)
    (cs : List Char) : helperPath previous (c :: cs) = none := by
  simp [helperPath, plain]

theorem helperPath_eq_none_of_other {q c : Char} (other : c ≠ '@') (previous : Option Char) (cs : List Char) :
    helperPath previous (q :: c :: cs) = none := by
  cases found : helperPath previous (q :: c :: cs) with
  | none => rfl
  | some hit =>
    obtain ⟨_, -, same, -⟩ := helperPath_eq_some found
    exact absurd (List.cons.inj (List.cons.inj same).2).1 other

theorem silent_helperPath {text : List Char} (unquoted : Unquoted text) (previous : Option Char) (rest : List Char) :
    Silent helperPath previous text rest :=
  silent_of_forall (fun c inside _ _ => helperPath_eq_none_of_plain (unquoted c inside) _ _) previous rest

/-- Behind the place where a path starts nothing is found up to the end of the line. -/
theorem substituteBehind_helperPath_path {path : List Char} (unquoted : Unquoted path) (q : Char)
    (previous : Option Char) (rest : List Char) :
    substituteBehind helperPath previous (path ++ q :: (";\n".toList ++ rest)) =
      path ++ q :: (";\n".toList ++ substituteBehind helperPath (some '\n') rest) := by
  have silent : Silent helperPath previous (path ++ q :: ";\n".toList) rest := by
    rw [silent_append]
    refine ⟨silent_helperPath unquoted _ _, helperPath_eq_none_of_other (by decide) _ _, ?_⟩
    exact silent_helperPath (by decide) _ _
  have passed := substituteBehind_of_silent silent
  rw [lastOr_append_cons, List.append_assoc, List.append_assoc, List.cons_append, List.cons_append] at passed
  exact passed

section Module

variable {q : Char} (quote : isPlainQuote q = true) {source : List Char}

include quote

theorem helperPath_of_found {path : List Char} (found : after? "@/lib/".toList source = some path)
    (previous : Option Char) (rest : List Char) :
    helperPath previous (q :: (source ++ rest)) = some (q :: "$lib/".toList, path ++ rest) := by
  rw [after?_eq_some_iff.mp found, List.append_assoc]
  simp only [helperPath, List.head?_cons, quote, List.drop_succ_cons, List.drop_zero, after?_append, guard_true,
    Option.bind_eq_bind, Option.bind_some]
  rfl

theorem helperPath_of_absent (absent : after? "@/lib/".toList source = none) (previous : Option Char)
    (rest : List Char) : helperPath previous (q :: (source ++ q :: rest)) = none := by
  have stop : ∀ c ∈ (q :: rest).head?, c ∉ "@/lib/".toList := by
    intro c head inside
    obtain rfl : q = c := by simpa using head
    have plain : Unquoted "@/lib/".toList := by decide
    exact Bool.false_ne_true ((plain q inside).symm.trans quote)
  have apart : after? "@/lib/".toList (source ++ q :: rest) = none := by
    rw [after?_append_of_head stop, absent, Option.map_none]
  simp only [helperPath, List.head?_cons, quote, List.drop_succ_cons, List.drop_zero, apart, guard_true,
    Option.bind_eq_bind, Option.bind_some, Option.bind_none]
  rfl

/-- A quoted module at the end of a line is moved. -/
theorem substituteBehind_helperPath_quoted (unquoted : Unquoted source) (previous : Option Char) (rest : List Char) :
    substituteBehind helperPath previous (q :: (source ++ q :: (";\n".toList ++ rest))) =
      q :: (helperModule source ++ q :: (";\n".toList ++ substituteBehind helperPath (some '\n') rest)) := by
  rw [helperModule]
  cases found : after? "@/lib/".toList source with
  | none =>
    rw [substituteBehind_of_none (helperPath_of_absent quote found _ _), substituteBehind_helperPath_path unquoted]
  | some path =>
    have here := helperPath_of_found quote found previous (q :: (";\n".toList ++ rest))
    obtain rfl := after?_eq_some_iff.mp found
    have start : q :: "@/lib/".toList ≠ [] := List.cons_ne_nil _ _
    rw [List.append_assoc] at here ⊢
    exact (substituteBehind_of_some start here).trans
      (congrArg (q :: "$lib/".toList ++ ·) (substituteBehind_helperPath_path unquoted.right _ _ _))

end Module

/-- The older name of the rest of the props in a spread, and the newer one. -/
def restProps : Rule (List Char) := literally "\x7b...$$props\x7d" "\x7b...$$restProps\x7d"

section Line

variable {l : ImportLine} (written : l.IsWritten)

include written

theorem takes_helperPath_text : Takes helperPath l.text (l.moved helperModule).text := by
  intro previous rest _
  rw [l.text_append_eq, l.text_moved, substituteBehind_of_silent (silent_helperPath written.unquoted_beforeQuote _ _),
    substituteBehind_helperPath_quoted written.quote written.source.unquoted]
  simp only [List.append_assoc, List.cons_append]

theorem takes_restProps_text : Takes restProps l.text (l.moved (substitute restProps)).text := by
  intro previous rest _
  have nonempty : "\x7b...$$props\x7d".toList ≠ [] := by decide
  have quote : l.quote ∉ "\x7b...$$props\x7d".toList := written.quote_not_mem (by decide)
  have front : substitute restProps l.beforeQuote = l.beforeQuote := by
    have inFront : '.' ∉ l.front := written.not_mem_front (by decide) (by decide) (by decide)
    refine substitute_literally_of_not_occurs nonempty _ (occurs_eq_false_of_not_mem (c := '.') (by decide) ?_)
    rw [ImportLine.beforeQuote, List.mem_append, not_or]
    exact ⟨inFront, by decide⟩
  have semicolon : substitute restProps [';'] = [';'] := rfl
  have ending : ";\n".toList ++ rest = [';'] ++ '\n' :: rest := rfl
  rw [l.text_append_eq, l.text_moved, ending, restProps, substituteBehind_literally_append nonempty quote,
    substituteBehind_literally_append nonempty quote, substituteBehind_literally_append nonempty (by decide), ← restProps,
    front, semicolon]
  simp

/-- A line holds one text in quotes, and no binding in front of it. -/
theorem not_occurs_attrs : occurs "v-bind=\"$props\"".toList l.row = false := by
  rw [← Bool.not_eq_true, occurs_iff]
  rintro ⟨before, behind, whole⟩
  have double : isPlainQuote '"' = true := rfl
  have unquoted := written.unquoted_beforeQuote
  have same : (before ++ "v-bind=".toList) ++ '"' :: ("$props\"".toList ++ behind) =
      l.beforeQuote ++ l.quote :: (l.source ++ l.quote :: [';']) := by
    rw [l.row_eq] at whole
    simpa using whole
  rcases run_cases (before ++ "v-bind=".toList) with plain | ⟨run, q, inside, plain, quote, shape⟩
  · have ends := congrArg List.getLast? (unquoted_inj plain unquoted double written.quote same).1
    simp [ImportLine.beforeQuote] at ends
  · rw [shape, List.append_assoc, List.cons_append] at same
    obtain ⟨-, -, same⟩ := unquoted_inj plain unquoted quote written.quote same
    rcases run_cases inside with plain' | ⟨run', q', inside', plain', quote', rfl⟩
    · have ends := (unquoted_inj plain' written.source.unquoted double written.quote same).2.2
      simp at ends
    · rw [List.append_assoc, List.cons_append] at same
      have ends := (unquoted_inj plain' written.source.unquoted quote' written.quote same).2.2
      have lengths := congrArg List.length ends
      simp at lengths
      omega

end Line

end Recast.Repair
