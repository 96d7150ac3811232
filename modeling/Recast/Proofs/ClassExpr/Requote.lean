import Recast.Proofs.Text.Reference
import Recast.Proofs.Text.Token

/-!
# Quotes of an expression in an attribute

For an attribute in double quotes, string literals move to single quotes unless they hold one, and the
double quotes that are left become references. Where only string literals hold quotes, what is read back
is the same expression token by token, and each of its literals denotes what it did.
-/

set_option autoImplicit false

namespace Recast.Literal

open Recast.ClassExpr Recast.Quoted Recast.Text

namespace Token

/-- A double-quoted literal in single quotes, unless it holds one. -/
def requoted : Token → Token
  | code text => code text
  | literal q contents =>
    if q = '"' ∧ '\'' ∉ contents.toList then literal '\'' contents else literal q contents

/-- What a literal denotes. -/
def value? : Token → Option (List Nat)
  | code _ => none
  | literal q contents => units? q contents.toList

/-- A string literal on one line, or anything without quotes in it. -/
def IsPlain : Token → Prop
  | code text => '"' ∉ text.toList ∧ '\'' ∉ text.toList
  | literal q contents =>
    if q = '"' ∨ q = '\'' then (units? q contents.toList).isSome = true ∧ '\n' ∉ contents.toList
    else q = '`' ∧ '"' ∉ contents.toList ∧ '\'' ∉ contents.toList

end Token

/-! ## String literals in an expression -/

section Scan

variable {q : Char}

theorem literalRest?_cons {c : Char} (other : c ≠ '\\') (inside : c ≠ q) (cs : List Char) :
    literalRest? q (c :: cs) = (literalRest? q cs).map fun r => (c :: r.1, r.2) := by
  rw [literalRest?.eq_def]
  split <;> simp_all

theorem literalRest?_append_of {front : List Char} (plain : ∀ c ∈ front, c ≠ '\\' ∧ c ≠ q) (cs : List Char) :
    literalRest? q (front ++ cs) = (literalRest? q cs).map fun r => (front ++ r.1, r.2) := by
  induction front with
  | nil => simp
  | cons c front ih =>
    obtain ⟨other, inside⟩ := plain c (by simp)
    rw [List.cons_append, literalRest?_cons other inside, ih fun d member => plain d (by simp [member]),
      Option.map_map]
    rfl

/-- The contents of a string literal go up to its closing quote. -/
theorem literalRest?_contents (isString : q = '"' ∨ q = '\'') {cs : List Char} {v : List Nat}
    (value : units? q cs = some v) (line : '\n' ∉ cs) (rest : List Char) :
    literalRest? q (cs ++ q :: rest) = some (cs ++ [q], rest) := by
  have apart : q ≠ '\\' ∧ q ≠ '`' := by rcases isString with rfl | rfl <;> decide
  fun_induction units? q cs generalizing v with
  | case1 =>
    rw [literalRest?.eq_def]
    split <;> simp_all
  | case2 => cases value
  | case3 c cs us cs' read ih =>
    obtain ⟨v', inside, rfl⟩ := Option.map_eq_some_iff.mp value
    by_cases escapes : c = '\\'
    · subst escapes
      rw [item?, if_neg apart.1.symm, if_pos rfl, escape?] at read
      split at read
      · cases read
      · rename_i n extent
        obtain ⟨_, -, same⟩ := Option.map_eq_some_iff.mp read
        obtain ⟨rfl, rfl⟩ := Prod.mk.inj same
        obtain ⟨c, front, taken, shape⟩ := escapeLength_eq_some extent
        have whole : cs = c :: (front ++ cs.drop n) := by
          rw [← List.cons_append, ← taken, List.take_append_drop]
        generalize cs.drop n = behind at *
        subst whole
        have tail : ∀ d ∈ front, d ≠ '\\' ∧ d ≠ q := by
          rcases shape with pair | ⟨tail, -⟩
          · exact absurd (by simp [(List.cons.inj pair).2]) line
          · intro d member
            have here := tail d member
            constructor
            · rintro rfl
              exact absurd here (by decide)
            · rintro rfl
              rcases isString with rfl | rfl <;> exact absurd here (by decide)
        have sameLine : c ≠ '\n' := fun ends => line (by simp [ends])
        have rest' := ih inside (fun member => line (by simp [member]))
        rw [List.cons_append, List.cons_append, List.append_assoc, literalRest?, if_neg sameLine,
          literalRest?_append_of tail, rest']
        simp
    · rw [item?, if_neg escapes] at read
      split at read
      · cases read
      · rename_i inside'
        rw [plain?, if_neg apart.2] at read
        split at read
        · cases read
        · obtain ⟨rfl, rfl⟩ := Prod.mk.inj (Option.some.inj read)
          rw [List.cons_append, literalRest?_cons escapes inside', ih inside fun member => line (by simp [member])]
          rfl

end Scan

/-! ## Requoting -/

/-- An expression with its string literals in single quotes where that can be. -/
def singlyQuoted (cs : List Char) : List Char := (pieces cs).flatMap singleQuoted

theorem singlyQuoted_cons {c : Char} (other : c ≠ '"' ∧ c ≠ '\'') (cs : List Char) :
    singlyQuoted (c :: cs) = c :: singlyQuoted cs := by
  have nothing : literal? (c :: cs) = none := by simp [literal?, other]
  rw [singlyQuoted, pieces]
  split
  · simp_all
  · rw [pushCode.eq_def]
    split
    · rename_i text ps same
      rw [singlyQuoted, same]
      rfl
    · rfl

theorem singlyQuoted_append_of {text : List Char} (plain : '"' ∉ text ∧ '\'' ∉ text) (cs : List Char) :
    singlyQuoted (text ++ cs) = text ++ singlyQuoted cs := by
  induction text with
  | nil => rfl
  | cons c text ih =>
    have other : c ≠ '"' ∧ c ≠ '\'' := ⟨fun same => plain.1 (by simp [same]), fun same => plain.2 (by simp [same])⟩
    have rest : '"' ∉ text ∧ '\'' ∉ text :=
      ⟨fun member => plain.1 (by simp [member]), fun member => plain.2 (by simp [member])⟩
    rw [List.cons_append, singlyQuoted_cons other, ih rest, List.cons_append]

theorem singleQuoted_delimited {q : Char} (isString : q = '"' ∨ q = '\'') (cs : List Char) :
    singleQuoted (.literal (delimited q cs)) =
      if q = '"' ∧ '\'' ∉ cs then delimited '\'' cs else delimited q cs := by
  rw [singleQuoted]
  refine ite_congr (propext ?_) (fun _ => by simp [delimited]) fun _ => rfl
  rcases isString with rfl | rfl <;> simp [delimited]

theorem singlyQuoted_delimited {q : Char} (isString : q = '"' ∨ q = '\'') {cs : List Char} {v : List Nat}
    (value : units? q cs = some v) (line : '\n' ∉ cs) (rest : List Char) :
    singlyQuoted (delimited q cs ++ rest) =
      (if q = '"' ∧ '\'' ∉ cs then delimited '\'' cs else delimited q cs) ++ singlyQuoted rest := by
  have found : literal? (q :: (cs ++ q :: rest)) = some (delimited q cs, rest) := by
    rw [literal?, if_pos isString, literalRest?_contents isString value line]
    rfl
  have whole : delimited q cs ++ rest = q :: (cs ++ q :: rest) := by simp [delimited]
  rw [whole, singlyQuoted, pieces]
  split
  · rename_i l r same
    obtain ⟨rfl, rfl⟩ := Prod.mk.inj (Option.some.inj (found.symm.trans same))
    rw [List.flatMap_cons, singleQuoted_delimited isString]
    rfl
  · simp_all

theorem singlyQuoted_spelled {ts : List Token} (plain : ∀ t ∈ ts, t.IsPlain) :
    singlyQuoted (spelled ts) = spelled (ts.map Token.requoted) := by
  induction ts with
  | nil =>
    rw [spelled_nil, singlyQuoted, pieces]
    rfl
  | cons t ts ih =>
    have here := plain t (by simp)
    have later := ih fun u member => plain u (by simp [member])
    cases t with
    | code text => rw [spelled_code, singlyQuoted_append_of here, later]; rfl
    | literal q contents =>
      rw [Token.IsPlain] at here
      rw [spelled_literal, List.map_cons, Token.requoted]
      split at here
      · rename_i isString
        obtain ⟨v, value⟩ := Option.isSome_iff_exists.mp here.1
        rw [singlyQuoted_delimited isString value here.2, later]
        split <;> rfl
      · obtain ⟨rfl, free⟩ := here
        rw [singlyQuoted_append_of (by simpa [delimited] using free), later]
        rfl

theorem blocked_of_not_mem {q q' : Char} (isString : q ≠ '`' ∧ q' ≠ '`') {cs : List Char}
    (free : q' ∉ cs) (closed : blocked q cs = false) : blocked q' cs = false := by
  fun_induction blocked q cs with
  | case1 => rfl
  | case2 rest ih =>
    rw [blocked]
    exact ih (fun member => free (by simp [member])) closed
  | case3 c rest single ih =>
    rw [blocked]
    · exact ih (fun member => free (by simp [member])) closed
    · exact single
  | case4 c rest pair single ih =>
    rw [Bool.or_eq_false_iff] at closed
    have here : stops q' c rest = false := by
      have other : c ≠ q' := fun same => free (by simp [same])
      have line := closed.1
      simp only [stops, if_neg isString.1, if_neg isString.2, Bool.or_eq_false_iff, beq_eq_false_iff_ne] at line ⊢
      exact ⟨other, line.2⟩
    rw [blocked, here, ih (fun member => free (by simp [member])) closed.2]
    · rfl
    · exact pair
    · exact single

/-- A literal in other quotes denotes what it did. -/
theorem value?_requoted {t : Token} (plain : t.IsPlain) : t.requoted.value? = t.value? := by
  cases t with
  | code text => rfl
  | literal q contents =>
    rw [Token.IsPlain] at plain
    rw [Token.requoted]
    split
    · rename_i single
      obtain ⟨rfl, free⟩ := single
      rw [if_pos (.inl rfl)] at plain
      obtain ⟨v, value⟩ := Option.isSome_iff_exists.mp plain.1
      have closed : blocked '"' contents.toList = false := by
        have self : units? '"' contents.toList = if blocked '"' contents.toList then none else some v :=
          units?_delimited (by decide) (by decide) value
        rw [value] at self
        by_contra ends
        rw [if_pos (by simpa using ends)] at self
        cases self
      have same : units? '\'' contents.toList = if blocked '\'' contents.toList then none else some v :=
        units?_delimited (by decide) (by decide) value
      rw [blocked_of_not_mem (by decide) free closed, if_neg Bool.false_ne_true] at same
      exact same.trans value.symm
    · rfl

/-! ## Reading back -/

/-- Both quotes as one. -/
def evenQuote (c : Char) : Char := if c = '\'' then '"' else c

theorem eq_of_map_evenQuote {p cs : List Char} (free : '"' ∉ p) (same : cs.map evenQuote = p) : cs = p := by
  have fixed : ∀ c ∈ cs, evenQuote c = c := by
    intro c member
    have here : evenQuote c ≠ '"' := fun quote => free (same ▸ quote ▸ List.mem_map_of_mem member)
    rw [evenQuote] at here ⊢
    split
    · rename_i single
      exact absurd (if_pos single) here
    · rfl
  have kept : cs.map evenQuote = cs.map id := List.map_congr_left fixed
  rw [← same, kept, List.map_id]

theorem reference_infix_map {cs : List Char} : reference <:+: cs.map evenQuote ↔ reference <:+: cs := by
  constructor
  · rintro ⟨front, back, same⟩
    obtain ⟨left, back', rfl, split, -⟩ := List.map_eq_append_iff.mp same.symm
    obtain ⟨front', middle, rfl, -, inside⟩ := List.map_eq_append_iff.mp split
    rw [eq_of_map_evenQuote (by decide) inside]
    exact ⟨front', back', rfl⟩
  · rintro ⟨front, back, rfl⟩
    rw [List.map_append, List.map_append]
    exact ⟨_, _, rfl⟩

theorem map_evenQuote_requoted (t : Token) : t.requoted.chars.map evenQuote = t.chars.map evenQuote := by
  cases t with
  | code text => rfl
  | literal q contents =>
    rw [Token.requoted]
    split
    · rename_i single
      rw [single.1]
      simp [Token.chars, delimited, evenQuote]
    · rfl

theorem reference_infix_requoted (ts : List Token) :
    reference <:+: spelled (ts.map Token.requoted) ↔ reference <:+: spelled ts := by
  have same : (spelled (ts.map Token.requoted)).map evenQuote = (spelled ts).map evenQuote := by
    rw [spelled, spelled, List.flatMap_map, List.map_flatMap, List.map_flatMap]
    exact congrArg (fun f => ts.flatMap f) (funext map_evenQuote_requoted)
  rw [← reference_infix_map, same, reference_infix_map]

/-- An expression that is written for an attribute reads back as its tokens, some of them in other quotes,
exactly if it holds no reference of its own. -/
theorem decoded_attributeSafeChars_iff {ts : List Token} (plain : ∀ t ∈ ts, t.IsPlain) :
    decoded (attributeSafeChars (spelled ts)) = spelled (ts.map Token.requoted) ↔
      ¬ reference <:+: spelled ts := by
  have whole : decoded (attributeSafeChars (spelled ts)) = decoded (spelled (ts.map Token.requoted)) := by
    rw [← singlyQuoted_spelled plain]
    exact decoded_flatMap_quoteReference _
  rw [whole, decoded_eq_self_iff, reference_infix_requoted]

/-! ## Writing -/

theorem flatMap_quoteReference_of_not_mem {cs : List Char} (free : '"' ∉ cs) : cs.flatMap quoteReference = cs := by
  induction cs with
  | nil => rfl
  | cons c cs ih =>
    have other : c ≠ '"' := fun same => free (by simp [same])
    rw [List.flatMap_cons, quoteReference_of_ne other, ih fun member => free (by simp [member]), List.singleton_append]

/-- Text without quotes is written as it is. -/
theorem attributeSafeChars_append {text : List Char} (plain : '"' ∉ text ∧ '\'' ∉ text) (cs : List Char) :
    attributeSafeChars (text ++ cs) = text ++ attributeSafeChars cs := by
  have whole : singlyQuoted (text ++ cs) = text ++ singlyQuoted cs := singlyQuoted_append_of plain cs
  change (singlyQuoted (text ++ cs)).flatMap quoteReference = text ++ (singlyQuoted cs).flatMap quoteReference
  rw [whole, List.flatMap_append, flatMap_quoteReference_of_not_mem plain.1]

theorem attributeSafeChars_eq_self {cs : List Char} (plain : '"' ∉ cs ∧ '\'' ∉ cs) : attributeSafeChars cs = cs := by
  have whole := attributeSafeChars_append plain []
  have nothing : attributeSafeChars [] = [] := by
    rw [attributeSafeChars, pieces]
    rfl
  rwa [nothing, List.append_nil] at whole

/-- A string literal without quotes and backslashes moves to single quotes. -/
theorem attributeSafeChars_literal {t : List Char} (plain : '"' ∉ t ∧ '\'' ∉ t) (unescaped : '\\' ∉ t)
    (cs : List Char) :
    attributeSafeChars ('"' :: (t ++ '"' :: cs)) = '\'' :: (t ++ '\'' :: attributeSafeChars cs) := by
  have inside : ∀ c ∈ t, c ≠ '\\' ∧ c ≠ '"' := fun c member =>
    ⟨fun same => unescaped (same ▸ member), fun same => plain.1 (same ▸ member)⟩
  have closing : literalRest? '"' ('"' :: cs) = some (['"'], cs) := by
    rw [literalRest?.eq_def]
    simp
  have found : literal? ('"' :: (t ++ '"' :: cs)) = some (delimited '"' t, cs) := by
    rw [literal?, if_pos (.inl rfl), literalRest?_append_of inside, closing]
    rfl
  have moved : singlyQuoted ('"' :: (t ++ '"' :: cs)) = delimited '\'' t ++ singlyQuoted cs := by
    rw [singlyQuoted, pieces]
    split
    · rename_i l r same
      obtain ⟨rfl, rfl⟩ := Prod.mk.inj (Option.some.inj (found.symm.trans same))
      rw [List.flatMap_cons, singleQuoted_delimited (.inl rfl), if_pos ⟨rfl, plain.2⟩]
      rfl
    · simp_all
  have clear : '"' ∉ delimited '\'' t := by simp [delimited, plain.1]
  have whole : delimited '\'' t ++ attributeSafeChars cs = '\'' :: (t ++ '\'' :: attributeSafeChars cs) := by
    simp [delimited]
  change (singlyQuoted ('"' :: (t ++ '"' :: cs))).flatMap quoteReference = _
  rw [← whole, moved, List.flatMap_append, flatMap_quoteReference_of_not_mem clear]
  rfl

end Recast.Literal
