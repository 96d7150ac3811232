import Recast.ClassExpr.Scan
import Recast.Proofs.Text.Search
import Recast.Tsx.Scan

/-!
# What literals denote

A literal is read between its delimiters into the code units of its value, as modules read it: an escape
denotes what it stands for, a line end ends a string, and in a template it is a line feed. A template
with a hole has no value of its own. `units?_delimited` says what becomes of the contents of a literal
between other delimiters: the same value, unless something in them stops the new literal early.
-/

set_option autoImplicit false

namespace Recast.Literal

open Recast.Tsx (escapeLength endsLine isHex)
open Recast.ClassExpr (isQuote)

/-! ## Values -/

def codeUnits (n : Nat) : List Nat :=
  if n < 0x10000 then [n] else [0xd800 + (n - 0x10000) / 0x400, 0xdc00 + (n - 0x10000) % 0x400]

def charUnits (c : Char) : List Nat := codeUnits c.toNat

def textUnits (cs : List Char) : List Nat := cs.flatMap charUnits

def hexDigit (c : Char) : Nat :=
  if c.isDigit then c.toNat - 48 else if 'a' ≤ c then c.toNat - 87 else c.toNat - 55

def hexNumber (digits : List Char) : Nat := digits.foldl (fun n c => 16 * n + hexDigit c) 0

/-- The letters that stand for control characters. -/
def letterEscapes : List (Char × Nat) := [('b', 8), ('t', 9), ('n', 10), ('v', 11), ('f', 12), ('r', 13)]

/-- What an escape of one character denotes, given the character behind it. Of the digits only a zero is an
escape, and only if no digit follows. -/
def letterUnits? (next : Option Char) (c : Char) : Option (List Nat) :=
  if endsLine c then some []
  else if c.isDigit then (if c = '0' ∧ next.any Char.isDigit = false then some [0] else none)
  else some (((letterEscapes.lookup c).map ([·])).getD (charUnits c))

/-- What an escape denotes, given its text without the backslash and the character behind it. -/
def escapeUnits? (next : Option Char) : List Char → Option (List Nat)
  | [] => none
  | [c] => letterUnits? next c
  | c :: tail =>
    if c = 'u' ∧ tail.head? = some '{' then
      let n := hexNumber tail.tail.dropLast
      if n ≤ 0x10ffff then some (codeUnits n) else none
    else if c = 'x' ∨ c = 'u' then some [hexNumber tail]
    else if c = '\r' then some []
    else none

/-- What the escape behind a backslash denotes, and what follows it. -/
def escape? (cs : List Char) : Option (List Nat × List Char) :=
  match escapeLength cs with
  | none => none
  | some n => (escapeUnits? (cs.drop n).head? (cs.take n)).map fun us => (us, cs.drop n)

/-- What a character denotes that is neither a delimiter nor a backslash. -/
def plain? (q c : Char) (rest : List Char) : Option (List Nat × List Char) :=
  if q = '`' then
    if c = '$' ∧ rest.head? = some '{' then none
    else if c = '\r' then some ([10], if rest.head? = some '\n' then rest.tail else rest)
    else some (charUnits c, rest)
  else if c = '\n' ∨ c = '\r' then none
  else some (charUnits c, rest)

def item? (q c : Char) (rest : List Char) : Option (List Nat × List Char) :=
  if c = q then none else if c = '\\' then escape? rest else plain? q c rest

theorem item?_length {q c : Char} {rest rest' : List Char} {us : List Nat}
    (read : item? q c rest = some (us, rest')) : rest'.length ≤ rest.length := by
  rw [item?] at read
  split at read
  · cases read
  · split at read
    · rw [escape?] at read
      split at read
      · cases read
      · obtain ⟨_, -, same⟩ := Option.map_eq_some_iff.mp read
        cases same
        simp
    · rw [plain?] at read
      split at read
      · split at read
        · cases read
        · split at read
          · cases read
            split <;> simp
          · cases read
            exact Nat.le_refl _
      · split at read
        · cases read
        · cases read
          exact Nat.le_refl _

/-- The value of what stands between two delimiters, if it is one literal with a value. -/
def units? (q : Char) (cs : List Char) : Option (List Nat) :=
  match cs with
  | [] => some []
  | c :: rest =>
    match _h : item? q c rest with
    | none => none
    | some (us, rest') => (units? q rest').map (us ++ ·)
termination_by cs.length
decreasing_by exact Nat.lt_succ_of_le (item?_length _h)

def delimited (q : Char) (cs : List Char) : List Char := q :: (cs ++ [q])

/-- The value of a text that is a literal from its first character to its last. -/
def value? : List Char → Option (List Nat)
  | [] => none
  | q :: rest => if isQuote q = true ∧ rest.getLast? = some q then units? q rest.dropLast else none

theorem value?_delimited {q : Char} (quote : isQuote q = true) (cs : List Char) :
    value? (delimited q cs) = units? q cs := by
  rw [delimited, value?, if_pos ⟨quote, by simp⟩, List.dropLast_concat]

theorem value?_eq_some {cs : List Char} {v : List Nat} (value : value? cs = some v) :
    ∃ q, isQuote q = true ∧ cs.head? = some q ∧ units? q (cs.drop 1).dropLast = some v := by
  cases cs with
  | nil => cases value
  | cons q rest =>
    rw [value?] at value
    split at value
    · rename_i quoted
      exact ⟨q, quoted.1, rfl, value⟩
    · cases value

/-! ## Other delimiters -/

/-- Ends a literal early: its delimiter, a line end in a string, the start of a hole in a template. -/
def stops (q c : Char) (rest : List Char) : Bool :=
  c == q || (if q = '`' then c == '$' && rest.head? == some '{' else c == '\n' || c == '\r')

/-- Something outside all escapes ends the literal early. -/
def blocked (q : Char) : List Char → Bool
  | [] => false
  | '\\' :: '\r' :: '\n' :: rest => blocked q rest
  | '\\' :: _ :: rest => blocked q rest
  | c :: rest => stops q c rest || blocked q rest

theorem isQuote_iff {q : Char} : isQuote q = true ↔ q = '"' ∨ q = '\'' ∨ q = '`' := by
  simp [isQuote, or_assoc]

/-- What an escape may hold behind its first character. -/
def isEscapeTail (c : Char) : Bool := isHex c || c == '{' || c == '}'

theorem blocked_cons {q c : Char} (other : c ≠ '\\') (rest : List Char) :
    blocked q (c :: rest) = (stops q c rest || blocked q rest) := by
  rw [blocked.eq_def]
  split
  · contradiction
  · simp_all
  · simp_all
  · simp_all

theorem blocked_escape_char {q c : Char} {rest : List Char} (single : ¬ (c = '\r' ∧ rest.head? = some '\n')) :
    blocked q ('\\' :: c :: rest) = blocked q rest := by
  rw [blocked.eq_def]
  split
  · contradiction
  · simp_all
  · simp_all
  · rename_i other same
    cases same
    exact absurd rfl (other c rest rfl)

theorem blocked_tail {q : Char} (quote : isQuote q = true) {front : List Char}
    (tail : ∀ c ∈ front, isEscapeTail c = true) (rest : List Char) :
    blocked q (front ++ rest) = blocked q rest := by
  induction front with
  | nil => rfl
  | cons c front ih =>
    have here := tail c (by simp)
    have apart : c ≠ '\\' ∧ c ≠ '\n' ∧ c ≠ '\r' ∧ c ≠ '$' ∧ c ≠ q := by
      refine ⟨?_, ?_, ?_, ?_, ?_⟩
      · rintro rfl; revert here; decide
      · rintro rfl; revert here; decide
      · rintro rfl; revert here; decide
      · rintro rfl; revert here; decide
      · rintro rfl
        rcases isQuote_iff.mp quote with rfl | rfl | rfl <;> revert here <;> decide
    have goes : stops q c (front ++ rest) = false := by simp [stops, apart]
    rw [List.cons_append, blocked_cons apart.1, goes, Bool.false_or, ih fun d member => tail d (by simp [member])]

theorem getElem?_takeWhile_length (p : Char → Bool) (cs : List Char) :
    cs[(cs.takeWhile p).length]? = (cs.dropWhile p).head? := by
  induction cs with
  | nil => rfl
  | cons c cs ih =>
    by_cases h : p c = true
    · simpa [h] using ih
    · simp [h]

/-- An escape is one character, a carriage return with its line feed, or a letter with digits. -/
theorem escapeLength_eq_some {cs : List Char} {n : Nat} (extent : escapeLength cs = some n) :
    ∃ c front, cs.take n = c :: front ∧ (c :: front = ['\r', '\n'] ∨
      ((∀ d ∈ front, isEscapeTail d = true) ∧ ¬ (c = '\r' ∧ (front ++ cs.drop n).head? = some '\n'))) := by
  have tail : ∀ (c : Char) (front back : List Char), c ≠ '\r' → front.all isEscapeTail = true →
      (∀ d ∈ front, isEscapeTail d = true) ∧ ¬ (c = '\r' ∧ (front ++ back).head? = some '\n') :=
    fun c front back other all => ⟨List.all_eq_true.mp all, fun both => other both.1⟩
  unfold escapeLength at extent
  split at extent
  · rename_i a b rest
    split at extent
    · cases extent
      exact ⟨'x', [a, b], rfl, .inr (tail _ _ _ (by decide) (by simp_all [isEscapeTail]))⟩
    · cases extent
  · cases extent
  · rename_i rest
    dsimp only at extent
    split at extent
    · rename_i closed
      cases extent
      have brace : (rest.dropWhile isHex).head? = some '}' := by
        rw [← getElem?_takeWhile_length]
        simp_all
      obtain ⟨more, found⟩ := List.head?_eq_some_iff.mp brace
      have whole : rest.takeWhile isHex ++ '}' :: more = rest := by
        rw [← found, List.takeWhile_append_dropWhile]
      have digits : (rest.takeWhile isHex).all isEscapeTail = true := by
        refine List.all_eq_true.mpr fun c member => ?_
        have hex := List.mem_takeWhile_imp member
        simp [isEscapeTail, hex]
      generalize rest.takeWhile isHex = front at digits whole
      refine ⟨'u', '{' :: (front ++ ['}']), ?_, .inr (tail _ _ _ (by decide) (by simp [isEscapeTail, digits]))⟩
      rw [← whole]
      simp [List.take_length_add_append]
    · cases extent
  · rename_i a b c d rest _
    split at extent
    · cases extent
      exact ⟨'u', [a, b, c, d], rfl, .inr (tail _ _ _ (by decide) (by simp_all [isEscapeTail]))⟩
    · cases extent
  · cases extent
  · cases extent
    exact ⟨'\r', ['\n'], rfl, .inl rfl⟩
  · rename_i c rest _ _ _ _ _ single
    cases extent
    refine ⟨c, [], rfl, .inr ⟨fun d member => (nomatch member), ?_⟩⟩
    rintro ⟨rfl, next⟩
    obtain ⟨more, rfl⟩ := List.head?_eq_some_iff.mp next
    exact single more rfl rfl
  · cases extent

theorem blocked_escape {q : Char} (quote : isQuote q = true) {cs : List Char} {n : Nat}
    (extent : escapeLength cs = some n) : blocked q ('\\' :: cs) = blocked q (cs.drop n) := by
  obtain ⟨c, front, taken, shape⟩ := escapeLength_eq_some extent
  have whole : cs = c :: (front ++ cs.drop n) := by rw [← List.cons_append, ← taken, List.take_append_drop]
  generalize cs.drop n = back at *
  subst whole
  rcases shape with pair | ⟨tail, single⟩
  · obtain ⟨rfl, rfl⟩ := List.cons.inj pair
    rfl
  · rw [blocked_escape_char single, blocked_tail quote tail]

theorem units?_of_item? {q c : Char} {rest rest' : List Char} {us : List Nat}
    (read : item? q c rest = some (us, rest')) : units? q (c :: rest) = (units? q rest').map (us ++ ·) := by
  rw [units?]
  split
  · simp_all
  · simp_all

theorem units?_of_stops {q c : Char} {rest : List Char} (ends : item? q c rest = none) :
    units? q (c :: rest) = none := by
  rw [units?]
  split
  · rfl
  · simp_all

/-- A character that is no escape denotes the same between other delimiters, unless it ends them. -/
theorem plain?_delimited (q' : Char) {q c : Char} {rest rest' : List Char} {us : List Nat} (other : c ≠ '\\')
    (read : item? q c rest = some (us, rest')) :
    (stops q' c rest = true ∧ item? q' c rest = none) ∨
      (stops q' c rest = false ∧ item? q' c rest = some (us, rest') ∧ blocked q' rest = blocked q' rest') := by
  have inside : c ≠ q := by
    intro same
    rw [item?, if_pos same] at read
    cases read
  rw [item?, if_neg inside, if_neg other] at read
  by_cases ends : c = q'
  · exact .inl ⟨by simp [stops, ends], by rw [item?, if_pos ends]⟩
  rw [item?, if_neg ends, if_neg other]
  by_cases template : q' = '`'
  · subst template
    by_cases hole : c = '$' ∧ rest.head? = some '{'
    · exact .inl ⟨by simp [stops, hole], by rw [plain?, if_pos rfl, if_pos hole]⟩
    refine .inr ⟨by simpa [stops, ends] using hole, ?_⟩
    rw [plain?, if_pos rfl, if_neg hole]
    by_cases same : q = '`'
    · rw [plain?, if_pos same, if_neg hole] at read
      refine ⟨read, ?_⟩
      split at read
      · cases read
        split
        · rename_i feed
          obtain ⟨more, rfl⟩ := List.head?_eq_some_iff.mp feed
          rw [blocked_cons (by decide)]
          rfl
        · rfl
      · cases read
        rfl
    · rw [plain?, if_neg same] at read
      split at read
      · cases read
      · rename_i line
        cases read
        rw [if_neg fun feed => line (.inr feed)]
        exact ⟨rfl, rfl⟩
  · by_cases line : c = '\n' ∨ c = '\r'
    · exact .inl ⟨by simpa [stops, ends, template] using line, by rw [plain?, if_neg template, if_pos line]⟩
    refine .inr ⟨by simpa [stops, ends, template] using line, ?_⟩
    rw [plain?, if_neg template, if_neg line]
    rw [plain?] at read
    split at read
    · split at read
      · cases read
      · rw [if_neg fun feed => line (.inr feed)] at read
        cases read
        exact ⟨rfl, rfl⟩
    · cases read
      exact ⟨rfl, rfl⟩

/-- The contents of a literal between other delimiters have the same value, unless something in them
ends the literal early. -/
theorem units?_delimited {q q' : Char} (quote : isQuote q = true) (quote' : isQuote q' = true) {cs : List Char}
    {v : List Nat} (value : units? q cs = some v) :
    units? q' cs = if blocked q' cs then none else some v := by
  fun_induction units? q cs generalizing v with
  | case1 =>
    cases value
    rw [units?]
    rfl
  | case2 => cases value
  | case3 c rest us rest' read ih =>
    obtain ⟨v', inside, rfl⟩ := Option.map_eq_some_iff.mp value
    by_cases escapes : c = '\\'
    · subst escapes
      have apart : '\\' ≠ q ∧ '\\' ≠ q' := by
        constructor
        · rintro rfl
          exact absurd quote (by decide)
        · rintro rfl
          exact absurd quote' (by decide)
      rw [item?, if_neg apart.1, if_pos rfl] at read
      have same : item? q' '\\' rest = some (us, rest') := by rw [item?, if_neg apart.2, if_pos rfl, read]
      have passed : blocked q' ('\\' :: rest) = blocked q' rest' := by
        rw [escape?] at read
        split at read
        · cases read
        · rename_i extent
          obtain ⟨_, -, same⟩ := Option.map_eq_some_iff.mp read
          cases same
          exact blocked_escape quote' extent
      rw [units?_of_item? same, passed, ih inside]
      split <;> rfl
    · rw [blocked_cons escapes]
      rcases plain?_delimited q' escapes read with ⟨ends, nothing⟩ | ⟨goes, same, passed⟩
      · rw [units?_of_stops nothing, ends]
        rfl
      · rw [units?_of_item? same, goes, Bool.false_or, passed, ih inside]
        split <;> rfl

end Recast.Literal
