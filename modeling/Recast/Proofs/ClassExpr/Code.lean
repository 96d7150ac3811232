import Recast.ClassExpr.Scan
import Recast.Proofs.Text.Character
import Recast.Proofs.Text.Search
import Recast.Proofs.Text.Substitution

/-!
# Structured code

The scanners work on text without parsing it. `Code` is the structure of an expression as far as they look
at it: names, calls by name, bracketed groups, literals and single marks. On text that has this structure the
scanners find what it says: a scan for a closing parenthesis passes over code as it is, and separators
outside brackets and quotes are the commas that stand in it by themselves.
-/

set_option autoImplicit false

namespace Recast.ClassExpr

open Recast.Text

/-! ## Code -/

inductive Bracket where
  | round
  | square
  | curly
  deriving DecidableEq, Repr

namespace Bracket

def opening : Bracket → Char
  | round => '('
  | square => '['
  | curly => '\x7b'

def closing : Bracket → Char
  | round => ')'
  | square => ']'
  | curly => '\x7d'

end Bracket

/-- An expression from its first element on. A call is a name with a group in parentheses behind it, and
blanks between them or not. -/
inductive Code where
  | done
  | word (name : List Char) (rest : Code)
  | call (name gap : List Char) (inside rest : Code)
  | group (b : Bracket) (inside rest : Code)
  | literal (q : Char) (contents : List Char) (rest : Code)
  | mark (c : Char) (rest : Code)
  deriving DecidableEq, Repr

/-- A character that neither opens nor closes anything. -/
def isFlat (c : Char) : Bool :=
  !isQuote c && c != '(' && c != ')' && c != '[' && c != ']' && c != '\x7b' && c != '\x7d'

/-- A run of characters that join a name. -/
def IsName (t : List Char) : Prop := t ≠ [] ∧ t.all joinsName = true

instance (t : List Char) : Decidable (IsName t) := inferInstanceAs (Decidable (_ ∧ _))

/-- No quote of its kind stands in the contents of a literal without a backslash that takes it along, and a
backslash takes along something other than a line end. -/
def closes (q : Char) : List Char → Bool
  | [] => true
  | '\\' :: c :: cs => c != '\n' && closes q cs
  | c :: cs => c != '\\' && c != q && closes q cs

/-- Contents that end where the closing quote stands, also for a scan that only looks at the character in
front of it. -/
structure Closed (q : Char) (contents : List Char) : Prop where
  quote : isQuote q = true
  closes : closes q contents = true
  last : contents.getLast? ≠ some '\\'

namespace Code

def chars : Code → List Char
  | done => []
  | word name rest => name ++ rest.chars
  | call name gap inside rest => name ++ (gap ++ '(' :: (inside.chars ++ ')' :: rest.chars))
  | group b inside rest => b.opening :: (inside.chars ++ b.closing :: rest.chars)
  | literal q contents rest => q :: (contents ++ q :: rest.chars)
  | mark c rest => c :: rest.chars

def startsName : Code → Bool
  | word .. => true
  | call .. => true
  | _ => false

/-- An opening parenthesis comes next, with blanks in front of it or not. -/
def opensList : Code → Bool
  | group b _ _ => b == .round
  | mark c rest => isBlank c && rest.opensList
  | _ => false

/-- What may stand behind a name that is not called. -/
def apart (e : Code) : Bool := !e.startsName && !e.opensList

/-- Each element is what it is to the scanners, where literals have a property `P`. -/
def Formed (P : Char → List Char → Prop) : Code → Prop
  | done => True
  | word name rest => IsName name ∧ rest.apart = true ∧ rest.Formed P
  | call name gap inside rest =>
    IsName name ∧ gap.all isBlank = true ∧ inside.Formed P ∧ rest.Formed P
  | group _ inside rest => inside.Formed P ∧ rest.Formed P
  | literal q contents rest => P q contents ∧ rest.Formed P
  | mark c rest => joinsName c = false ∧ isFlat c = true ∧ rest.Formed P

instance decidableFormed (P : Char → List Char → Prop) [∀ q t, Decidable (P q t)] :
    (e : Code) → Decidable (e.Formed P)
  | done => .isTrue trivial
  | word _ rest =>
    have := decidableFormed P rest
    inferInstanceAs (Decidable (_ ∧ _))
  | call _ _ inside rest =>
    have := decidableFormed P inside
    have := decidableFormed P rest
    inferInstanceAs (Decidable (_ ∧ _))
  | group _ inside rest =>
    have := decidableFormed P inside
    have := decidableFormed P rest
    inferInstanceAs (Decidable (_ ∧ _))
  | literal _ _ rest =>
    have := decidableFormed P rest
    inferInstanceAs (Decidable (_ ∧ _))
  | mark _ rest =>
    have := decidableFormed P rest
    inferInstanceAs (Decidable (_ ∧ _))

def append : Code → Code → Code
  | done, b => b
  | word name rest, b => word name (rest.append b)
  | call name gap inside rest, b => call name gap inside (rest.append b)
  | group k inside rest, b => group k inside (rest.append b)
  | literal q contents rest, b => literal q contents (rest.append b)
  | mark c rest, b => mark c (rest.append b)

/-- Puts an element in front of the first of several parts. -/
def onFirst (f : Code → Code) : List Code → List Code
  | [] => [f done]
  | part :: parts => f part :: parts

/-- The parts between commas outside brackets and quotes, with the blanks around them. -/
def parts : Code → List Code
  | done => [done]
  | word name rest => onFirst (word name) rest.parts
  | call name gap inside rest => onFirst (call name gap inside) rest.parts
  | group b inside rest => onFirst (group b inside) rest.parts
  | literal q contents rest => onFirst (literal q contents) rest.parts
  | mark c rest => if c = ',' then done :: rest.parts else onFirst (mark c) rest.parts

def trimStart : Code → Code
  | mark c rest => if isBlank c then rest.trimStart else mark c rest
  | e => e

def trimEnd : Code → Code
  | done => done
  | word name rest => word name rest.trimEnd
  | call name gap inside rest => call name gap inside rest.trimEnd
  | group b inside rest => group b inside rest.trimEnd
  | literal q contents rest => literal q contents rest.trimEnd
  | mark c rest => if isBlank c ∧ rest.trimEnd = done then done else mark c rest.trimEnd

def trim (e : Code) : Code := e.trimStart.trimEnd

/-- What commas separate, without blanks around it and without empty parts. -/
def arguments (e : Code) : List Code := (e.parts.map trim).filter (· ≠ done)

end Code

/-! ## Characters -/

/-- A class of characters without quotes and brackets is flat. -/
theorem isFlat_of_class {p : Char → Bool}
    (free : ['"', '\'', '`', '(', ')', '[', ']', '\x7b', '\x7d'].all (!p ·) = true) {c : Char} (h : p c = true) :
    isFlat c = true := by
  have other : ∀ d ∈ ['"', '\'', '`', '(', ')', '[', ']', '\x7b', '\x7d'], c ≠ d := by
    rintro d member rfl
    have := List.all_eq_true.mp free c member
    simp [h] at this
  simpa [isFlat, isQuote, and_assoc] using other

theorem isFlat_of_joinsName {c : Char} (h : joinsName c = true) : isFlat c = true :=
  isFlat_of_class (by decide) h

theorem isFlat_of_isBlank {c : Char} (h : isBlank c = true) : isFlat c = true :=
  isFlat_of_class (by decide) h

theorem isBlank_eq_false_of_joinsName {c : Char} (h : joinsName c = true) : isBlank c = false := by
  rw [joinsName, Bool.or_eq_true, Bool.or_eq_true] at h
  rcases h with (h | h) | h
  · exact isBlank_eq_false_of_isWord h
  · rw [beq_iff_eq.mp h]
    decide
  · rw [beq_iff_eq.mp h]
    decide

theorem isFlat_name {t : List Char} (h : IsName t) : ∀ c ∈ t, isFlat c = true := fun c member =>
  isFlat_of_joinsName (List.all_eq_true.mp h.2 c member)

theorem isFlat_gap {t : List Char} (h : t.all isBlank = true) : ∀ c ∈ t, isFlat c = true := fun c member =>
  isFlat_of_isBlank (List.all_eq_true.mp h c member)

@[elab_as_elim]
theorem of_isQuote {motive : Char → Prop} {q : Char} (quote : isQuote q = true)
    (all : motive '"' ∧ motive '\'' ∧ motive '`') : motive q := by
  obtain ⟨double, single, template⟩ := all
  have shape : q = '"' ∨ q = '\'' ∨ q = '`' := by simpa [isQuote, or_assoc] using quote
  rcases shape with rfl | rfl | rfl
  · exact double
  · exact single
  · exact template

/-! ## Closing parentheses -/

section Close

variable {depth : Nat} {rest : List Char}

theorem upToClose?_quoted {q c : Char} (other : c ≠ '\\') (cs : List Char) :
    upToClose? depth (some q) (c :: cs) =
      (upToClose? depth (if c = q then none else some q) cs).map (c :: ·) := by
  rw [upToClose?.eq_def]
  simp only [if_neg other]

theorem upToClose?_escaped (q c : Char) (cs : List Char) :
    upToClose? depth (some q) ('\\' :: c :: cs) =
      (upToClose? depth (some q) cs).map fun r => '\\' :: c :: r := by
  rw [upToClose?.eq_def]
  simp

theorem upToClose?_quote {q : Char} (quote : isQuote q = true) (cs : List Char) :
    upToClose? depth none (q :: cs) = (upToClose? depth (some q) cs).map (q :: ·) := by
  rw [upToClose?.eq_def]
  simp [quote]

theorem upToClose?_opening (cs : List Char) :
    upToClose? depth none ('(' :: cs) = (upToClose? (depth + 1) none cs).map ('(' :: ·) := by
  rw [upToClose?.eq_def]
  simp [isQuote]

theorem upToClose?_closing (cs : List Char) :
    upToClose? (depth + 1) none (')' :: cs) = (upToClose? depth none cs).map (')' :: ·) := by
  rw [upToClose?.eq_def]
  simp [isQuote]

theorem upToClose?_closing_last (cs : List Char) : upToClose? 0 none (')' :: cs) = some [] := by
  rw [upToClose?.eq_def]
  simp [isQuote]

theorem upToClose?_other {c : Char} (quote : isQuote c = false) (opening : c ≠ '(') (closing : c ≠ ')')
    (cs : List Char) : upToClose? depth none (c :: cs) = (upToClose? depth none cs).map (c :: ·) := by
  rw [upToClose?.eq_def]
  simp [quote, opening, closing]

theorem upToClose?_flat {t : List Char} (flat : ∀ c ∈ t, isFlat c = true) :
    upToClose? depth none (t ++ rest) = (upToClose? depth none rest).map (t ++ ·) := by
  induction t with
  | nil => simp
  | cons c t ih =>
    have here := flat c (by simp)
    simp only [isFlat, Bool.and_eq_true, Bool.not_eq_true', bne_iff_ne] at here
    rw [List.cons_append, upToClose?_other (by simp [here]) (by simp [here]) (by simp [here]),
      ih fun d member => flat d (by simp [member]), Option.map_map]
    rfl

theorem upToClose?_contents {q : Char} {t : List Char} (quote : isQuote q = true) (h : closes q t = true) :
    upToClose? depth (some q) (t ++ q :: rest) =
      (upToClose? depth none rest).map fun r => t ++ q :: r := by
  have other : q ≠ '\\' := by
    rintro rfl
    exact absurd quote (by decide)
  fun_induction closes q t with
  | case1 => simp [upToClose?_quoted other]
  | case2 c cs ih =>
    have inside := (Bool.and_eq_true_iff.mp h).2
    rw [List.cons_append, List.cons_append, upToClose?_escaped, ih inside, Option.map_map]
    rfl
  | case3 c cs _ ih =>
    simp only [Bool.and_eq_true, bne_iff_ne] at h
    rw [List.cons_append, upToClose?_quoted h.1.1, if_neg h.1.2, ih h.2, Option.map_map]
    rfl

/-- A scan for a closing parenthesis passes over code. -/
theorem upToClose?_code {P : Char → List Char → Prop} (closed : ∀ q t, P q t → Closed q t) {e : Code}
    (formed : e.Formed P) (depth : Nat) (rest : List Char) :
    upToClose? depth none (e.chars ++ rest) = (upToClose? depth none rest).map (e.chars ++ ·) := by
  -- what follows is generalized, as brackets are closed behind what they hold
  induction e generalizing depth rest with
  | done => simp [Code.chars]
  | word name next ih =>
    rw [Code.chars, List.append_assoc, upToClose?_flat (isFlat_name formed.1), ih formed.2.2]
    simp [Function.comp_def]
  | call name gap inside next ihInside ihNext =>
    obtain ⟨isName, blank, within, behind⟩ := formed
    simp only [Code.chars, List.append_assoc, List.cons_append]
    rw [upToClose?_flat (isFlat_name isName), upToClose?_flat (isFlat_gap blank), upToClose?_opening,
      ihInside within, upToClose?_closing, ihNext behind]
    simp [Function.comp_def]
  | group b inside next ihInside ihNext =>
    obtain ⟨within, behind⟩ := formed
    simp only [Code.chars, List.append_assoc, List.cons_append]
    cases b with
    | round =>
      rw [Bracket.opening, Bracket.closing, upToClose?_opening, ihInside within, upToClose?_closing,
        ihNext behind]
      simp [Function.comp_def]
    | square =>
      rw [upToClose?_other (by decide) (by decide) (by decide), ihInside within,
        upToClose?_other (by decide) (by decide) (by decide), ihNext behind]
      simp [Function.comp_def]
    | curly =>
      rw [upToClose?_other (by decide) (by decide) (by decide), ihInside within,
        upToClose?_other (by decide) (by decide) (by decide), ihNext behind]
      simp [Function.comp_def]
  | literal q t next ih =>
    have literal := closed q t formed.1
    simp only [Code.chars, List.append_assoc, List.cons_append]
    rw [upToClose?_quote literal.quote, upToClose?_contents literal.quote literal.closes, ih formed.2]
    simp [Function.comp_def]
  | mark c next ih =>
    have flat : ∀ d ∈ [c], isFlat d = true := by simpa using formed.2.1
    rw [Code.chars, List.cons_append, ← List.singleton_append, upToClose?_flat flat, ih formed.2.2]
    simp [Function.comp_def]

end Close

/-! ## Separators -/

section Separate

variable {depth : Int} {rest : List Char}

/-- Puts text in front of the first of several parts. -/
def pushAll (t : List Char) (ps : List (List Char)) : List (List Char) := t.foldr partsFrom.push ps

theorem pushAll_append (t u : List Char) (ps : List (List Char)) :
    pushAll (t ++ u) ps = pushAll t (pushAll u ps) := List.foldr_append

theorem pushAll_cons (t p : List Char) (ps : List (List Char)) : pushAll t (p :: ps) = (t ++ p) :: ps := by
  induction t with
  | nil => rfl
  | cons c t ih => rw [pushAll, List.foldr_cons, ← pushAll, ih]; rfl

/-- Outside quotes the character in front does not matter. -/
theorem partsFrom_some (c : Char) (cs : List Char) :
    partsFrom ',' depth none (some c) cs = partsFrom ',' depth none none cs := by
  cases cs <;> simp only [partsFrom]

theorem partsFrom_flat {t : List Char} (flat : ∀ c ∈ t, isFlat c = true)
    (inside : ∀ c ∈ t, c = ',' → depth ≠ 0) :
    partsFrom ',' depth none none (t ++ rest) = pushAll t (partsFrom ',' depth none none rest) := by
  induction t with
  | nil => rfl
  | cons c t ih =>
    have here := flat c (by simp)
    have comma := inside c (by simp)
    simp only [isFlat, Bool.and_eq_true, Bool.not_eq_true', bne_iff_ne] at here
    have keep : ¬(c = ',' ∧ depth = 0) := fun both => comma both.1 both.2
    rw [List.cons_append, partsFrom]
    simp only [here, Bool.false_eq_true, if_false, or_self, if_neg keep]
    rw [partsFrom_some, ih (fun d member => flat d (by simp [member])) fun d member => inside d (by simp [member])]
    rfl

theorem partsFrom_opening (b : Bracket) (cs : List Char) :
    partsFrom ',' depth none none (b.opening :: cs) =
      pushAll [b.opening] (partsFrom ',' (depth + 1) none none cs) := by
  rw [partsFrom]
  cases b <;> simp [Bracket.opening, isQuote, pushAll, partsFrom_some]

theorem partsFrom_closing (b : Bracket) (cs : List Char) :
    partsFrom ',' (depth + 1) none none (b.closing :: cs) =
      pushAll [b.closing] (partsFrom ',' depth none none cs) := by
  rw [partsFrom]
  cases b <;> simp [Bracket.closing, isQuote, pushAll, partsFrom_some]

theorem partsFrom_contents {q : Char} {t : List Char} (quote : isQuote q = true) (h : closes q t = true)
    {previous : Option Char} (last : lastOr previous t ≠ some '\\') :
    partsFrom ',' depth (some q) previous (t ++ q :: rest) =
      pushAll t (pushAll [q] (partsFrom ',' depth none none rest)) := by
  have other : q ≠ '\\' := by
    rintro rfl
    exact absurd quote (by decide)
  fun_induction closes q t generalizing previous with
  | case1 =>
    have ends : previous ≠ some '\\' := by simpa using last
    rw [List.nil_append, partsFrom]
    simp only [ends, ne_eq, not_false_eq_true, and_self, if_true, partsFrom_some]
    rfl
  | case2 c cs ih =>
    have inside := (Bool.and_eq_true_iff.mp h).2
    rw [lastOr_cons, lastOr_cons] at last
    rw [List.cons_append, List.cons_append, partsFrom.eq_def]
    simp only [Ne.symm other, false_and, if_false]
    rw [partsFrom.eq_def]
    simp only [ne_eq, not_true, and_false, if_false, ih inside last]
    rfl
  | case3 c cs _ ih =>
    simp only [Bool.and_eq_true, bne_iff_ne] at h
    rw [lastOr_cons] at last
    rw [List.cons_append, partsFrom]
    simp only [h.1.2, false_and, if_false, ih h.2 last]
    rfl

theorem partsFrom_literal {q : Char} {t : List Char} (h : Closed q t) :
    partsFrom ',' depth none none (q :: (t ++ q :: rest)) =
      pushAll [q] (pushAll t (pushAll [q] (partsFrom ',' depth none none rest))) := by
  have other : q ≠ '\\' := by
    rintro rfl
    exact absurd h.quote (by decide)
  have last : lastOr (some q) t ≠ some '\\' := by
    cases shape : t.getLast? with
    | none => simpa [lastOr, shape] using other
    | some c => simpa [lastOr, shape] using h.last
  have flat : q ≠ '(' ∧ q ≠ ')' ∧ q ≠ '[' ∧ q ≠ ']' ∧ q ≠ '\x7b' ∧ q ≠ '\x7d' ∧ q ≠ ',' := by
    refine ⟨?_, ?_, ?_, ?_, ?_, ?_, ?_⟩ <;>
    · rintro rfl
      exact absurd h.quote (by decide)
  rw [partsFrom]
  simp only [h.quote, if_true, flat, or_self, if_false, false_and, partsFrom_contents h.quote h.closes last]
  rfl

/-- Inside brackets code is passed over as it is. -/
theorem partsFrom_code {P : Char → List Char → Prop} (closed : ∀ q t, P q t → Closed q t) {e : Code}
    (formed : e.Formed P) {depth : Int} (deep : 0 < depth) (rest : List Char) :
    partsFrom ',' depth none none (e.chars ++ rest) =
      pushAll e.chars (partsFrom ',' depth none none rest) := by
  induction e generalizing depth rest with
  | done => rfl
  | word name next ih =>
    rw [Code.chars, List.append_assoc, partsFrom_flat (isFlat_name formed.1) (by omega), ih formed.2.2 deep,
      pushAll_append]
  | call name gap inside next ihInside ihNext =>
    obtain ⟨isName, blank, within, behind⟩ := formed
    simp only [Code.chars, List.append_assoc, List.cons_append, pushAll_append]
    rw [partsFrom_flat (isFlat_name isName) (by omega), partsFrom_flat (isFlat_gap blank) (by omega),
      ← Bracket.opening, partsFrom_opening, ihInside within (by omega), ← Bracket.closing, partsFrom_closing,
      ihNext behind deep]
    simp only [← pushAll_append, List.singleton_append]
  | group b inside next ihInside ihNext =>
    obtain ⟨within, behind⟩ := formed
    simp only [Code.chars, List.append_assoc, List.cons_append]
    rw [partsFrom_opening, ihInside within (by omega), partsFrom_closing, ihNext behind deep]
    simp only [← pushAll_append, List.singleton_append]
  | literal q t next ih =>
    simp only [Code.chars, List.append_assoc, List.cons_append]
    rw [partsFrom_literal (closed q t formed.1), ih formed.2 deep]
    simp only [← pushAll_append, List.singleton_append]
  | mark c next ih =>
    have flat : ∀ d ∈ [c], isFlat d = true := by simpa using formed.2.1
    rw [Code.chars, List.cons_append, ← List.singleton_append, partsFrom_flat flat (by omega),
      ih formed.2.2 deep, ← pushAll_append, List.singleton_append]

end Separate

/-! ## Parts -/

namespace Code

variable {P : Char → List Char → Prop} {e : Code}

@[simp]
theorem chars_append (a b : Code) : (a.append b).chars = a.chars ++ b.chars := by
  induction a with
  | done => rfl
  | word name rest ih => simp [append, chars, ih]
  | call name gap inside rest _ ih => simp [append, chars, ih]
  | group k inside rest _ ih => simp [append, chars, ih]
  | literal q t rest ih => simp [append, chars, ih]
  | mark c rest ih => simp [append, chars, ih]

theorem chars_eq_nil_iff (formed : e.Formed P) : e.chars = [] ↔ e = done := by
  cases e with
  | word name rest => simp [chars, formed.1.1]
  | call name gap inside rest => simp [chars, formed.1.1]
  | _ => simp [chars]

/-- Code that starts no name and no list where another one does not. -/
structure StartsLike (a b : Code) : Prop where
  name : b.startsName = false → a.startsName = false
  list : b.opensList = false → a.opensList = false

theorem StartsLike.apart {a b : Code} (h : a.StartsLike b) (free : b.apart = true) : a.apart = true := by
  simp only [Code.apart, Bool.and_eq_true, Bool.not_eq_true'] at free ⊢
  exact ⟨h.name free.1, h.list free.2⟩

theorem StartsLike.done (b : Code) : done.StartsLike b := ⟨fun _ => rfl, fun _ => rfl⟩

theorem StartsLike.mark {a b : Code} (h : a.StartsLike b) (c : Char) : (mark c a).StartsLike (mark c b) where
  name _ := rfl
  list free := by
    rw [opensList, Bool.and_eq_false_iff] at free ⊢
    exact free.imp_right h.list

/-! ### Parts -/

theorem exists_parts (e : Code) : ∃ first others, e.parts = first :: others ∧ first.StartsLike e := by
  induction e with
  | done => exact ⟨done, [], rfl, .done _⟩
  | mark c rest ih =>
    obtain ⟨first, others, shape, starts⟩ := ih
    rw [parts]
    split
    · exact ⟨done, rest.parts, rfl, .done _⟩
    · rw [shape]
      exact ⟨mark c first, others, rfl, starts.mark c⟩
  | word name rest ih =>
    obtain ⟨first, others, shape, -⟩ := ih
    rw [parts, shape]
    exact ⟨_, others, rfl, fun h => h, fun h => h⟩
  | call name gap inside rest _ ih =>
    obtain ⟨first, others, shape, -⟩ := ih
    rw [parts, shape]
    exact ⟨_, others, rfl, fun h => h, fun h => h⟩
  | group b inside rest _ ih =>
    obtain ⟨first, others, shape, -⟩ := ih
    rw [parts, shape]
    exact ⟨_, others, rfl, fun h => h, fun h => h⟩
  | literal q t rest ih =>
    obtain ⟨first, others, shape, -⟩ := ih
    rw [parts, shape]
    exact ⟨_, others, rfl, fun h => h, fun h => h⟩

theorem forall_mem_onFirst {Q : Code → Prop} {f : Code → Code} {first : Code} {others : List Code}
    (here : Q first → Q (f first)) (all : ∀ part ∈ first :: others, Q part) :
    ∀ part ∈ onFirst f (first :: others), Q part := by
  intro part member
  rcases List.mem_cons.mp member with rfl | later
  · exact here (all first (by simp))
  · exact all part (by simp [later])

theorem formed_parts (formed : e.Formed P) : ∀ part ∈ e.parts, part.Formed P := by
  induction e with
  | done => simp [parts, Formed]
  | word name rest ih =>
    obtain ⟨first, others, shape, starts⟩ := rest.exists_parts
    rw [parts, shape]
    exact forall_mem_onFirst (fun h => ⟨formed.1, starts.apart formed.2.1, h⟩) (shape ▸ ih formed.2.2)
  | call name gap inside rest _ ih =>
    obtain ⟨first, others, shape, -⟩ := rest.exists_parts
    rw [parts, shape]
    exact forall_mem_onFirst (fun h => ⟨formed.1, formed.2.1, formed.2.2.1, h⟩) (shape ▸ ih formed.2.2.2)
  | group b inside rest _ ih =>
    obtain ⟨first, others, shape, -⟩ := rest.exists_parts
    rw [parts, shape]
    exact forall_mem_onFirst (fun h => ⟨formed.1, h⟩) (shape ▸ ih formed.2)
  | literal q t rest ih =>
    obtain ⟨first, others, shape, -⟩ := rest.exists_parts
    rw [parts, shape]
    exact forall_mem_onFirst (fun h => ⟨formed.1, h⟩) (shape ▸ ih formed.2)
  | mark c rest ih =>
    obtain ⟨first, others, shape, -⟩ := rest.exists_parts
    rw [parts]
    split
    · exact List.forall_mem_cons.mpr ⟨trivial, ih formed.2.2⟩
    · rw [shape]
      exact forall_mem_onFirst (fun h => ⟨formed.1, formed.2.1, h⟩) (shape ▸ ih formed.2.2)

theorem map_chars_onFirst {f : Code → Code} {t : List Char} (front : ∀ part, (f part).chars = t ++ part.chars)
    (e : Code) : (onFirst f e.parts).map chars = pushAll t (e.parts.map chars) := by
  obtain ⟨first, others, shape, -⟩ := e.exists_parts
  rw [shape, List.map_cons, pushAll_cons, onFirst, List.map_cons, front]

/-- Separators outside brackets and quotes are those between the parts. -/
theorem partsFrom_chars (closed : ∀ q t, P q t → Closed q t) (formed : e.Formed P) :
    partsFrom ',' 0 none none e.chars = e.parts.map chars := by
  induction e with
  | done => rfl
  | word name rest ih =>
    have noComma : ∀ c ∈ name, c = ',' → (0 : Int) ≠ 0 := by
      rintro c member rfl
      exact absurd (List.all_eq_true.mp formed.1.2 ',' member) (by decide)
    rw [chars, partsFrom_flat (isFlat_name formed.1) noComma, ih formed.2.2, parts,
      map_chars_onFirst fun _ => by rw [chars]]
  | call name gap inside rest _ ih =>
    obtain ⟨isName, blank, within, behind⟩ := formed
    have noComma : ∀ c ∈ name ++ gap, c = ',' → (0 : Int) ≠ 0 := by
      rintro c member rfl
      rcases List.mem_append.mp member with inName | inGap
      · exact absurd (List.all_eq_true.mp isName.2 ',' inName) (by decide)
      · exact absurd (List.all_eq_true.mp blank ',' inGap) (by decide)
    have flat : ∀ c ∈ name ++ gap, isFlat c = true := by
      intro c member
      exact (List.mem_append.mp member).elim (isFlat_name isName c) (isFlat_gap blank c)
    rw [chars, ← List.append_assoc, partsFrom_flat flat noComma, ← Bracket.opening, partsFrom_opening,
      partsFrom_code closed within (by omega), ← Bracket.closing, partsFrom_closing, ih behind, parts,
      ← pushAll_append, ← pushAll_append, ← pushAll_append]
    exact (map_chars_onFirst (fun _ => by simp [chars, Bracket.opening, Bracket.closing]) rest).symm
  | group b inside rest _ ih =>
    rw [chars, partsFrom_opening, partsFrom_code closed formed.1 (by omega), partsFrom_closing, ih formed.2,
      parts, ← pushAll_append, ← pushAll_append]
    exact (map_chars_onFirst (fun _ => by simp [chars]) rest).symm
  | literal q t rest ih =>
    rw [chars, partsFrom_literal (closed q t formed.1), ih formed.2, parts, ← pushAll_append, ← pushAll_append]
    exact (map_chars_onFirst (fun _ => by simp [chars]) rest).symm
  | mark c rest ih =>
    rw [chars, parts]
    split
    · rename_i comma
      have here : partsFrom ',' 0 none none (',' :: rest.chars) = [] :: partsFrom ',' 0 none (some ',') rest.chars := by
        rw [partsFrom]
        simp [isQuote]
      rw [comma, here, partsFrom_some, ih formed.2.2]
      rfl
    · rename_i other
      have flat : ∀ d ∈ [c], isFlat d = true := by simpa using formed.2.1
      rw [← List.singleton_append, partsFrom_flat flat (by simp [other]), ih formed.2.2,
        map_chars_onFirst fun _ => by rw [chars, List.singleton_append]]

/-! ### Trimming -/

theorem isBlank_head_eq_false {e : Code} (closed : ∀ q t, P q t → Closed q t) (formed : e.Formed P)
    (solid : ∀ c rest, e = mark c rest → isBlank c = false) : e.chars.head?.any isBlank = false := by
  have named {name : List Char} (h : IsName name) (t : List Char) :
      (name ++ t).head?.any isBlank = false := by
    obtain ⟨c, front, rfl⟩ := List.exists_cons_of_ne_nil h.1
    exact isBlank_eq_false_of_joinsName (List.all_eq_true.mp h.2 c (by simp))
  cases e with
  | done => rfl
  | word name rest => exact named formed.1 _
  | call name gap inside rest => exact named formed.1 _
  | group b inside rest => cases b <;> exact show isBlank _ = false by decide
  | literal q t rest =>
    have solid : isBlank q = false := of_isQuote (closed q t formed.1).quote (by decide)
    exact solid
  | mark c rest => exact solid c rest rfl

theorem chars_trimStart (closed : ∀ q t, P q t → Closed q t) (formed : e.Formed P) :
    e.trimStart.chars = e.chars.dropWhile isBlank := by
  have keep (e : Code) (formed : e.Formed P) (solid : ∀ c rest, e = mark c rest → isBlank c = false) :
      e.chars = e.chars.dropWhile isBlank := by
    have head := isBlank_head_eq_false closed formed solid
    cases shape : e.chars with
    | nil => rfl
    | cons c t => exact (List.dropWhile_cons_of_neg (by simpa [shape] using head)).symm
  induction e with
  | mark c rest ih =>
    rw [trimStart]
    split
    · rename_i blank
      rw [ih formed.2.2, chars, List.dropWhile_cons_of_pos blank]
    · rename_i solid
      exact keep _ formed fun _ _ same => by simpa [← (Code.mark.inj same).1] using solid
  | _ => exact keep _ formed fun _ _ same => by cases same

theorem formed_trimStart (formed : e.Formed P) : e.trimStart.Formed P := by
  induction e with
  | mark c rest ih =>
    rw [trimStart]
    split
    · exact ih formed.2.2
    · exact formed
  | _ => exact formed

theorem trimEnd_startsLike (e : Code) : e.trimEnd.StartsLike e := by
  induction e with
  | mark c rest ih =>
    rw [trimEnd]
    split
    · exact .done _
    · exact ih.mark c
  | _ => exact ⟨fun h => h, fun h => h⟩

theorem formed_trimEnd (formed : e.Formed P) : e.trimEnd.Formed P := by
  induction e with
  | done => trivial
  | word name rest ih => exact ⟨formed.1, rest.trimEnd_startsLike.apart formed.2.1, ih formed.2.2⟩
  | call name gap inside rest _ ih => exact ⟨formed.1, formed.2.1, formed.2.2.1, ih formed.2.2.2⟩
  | group b inside rest _ ih => exact ⟨formed.1, ih formed.2⟩
  | literal q t rest ih => exact ⟨formed.1, ih formed.2⟩
  | mark c rest ih =>
    rw [trimEnd]
    split
    · trivial
    · exact ⟨formed.1, formed.2.1, ih formed.2.2⟩

/-- Text with a last character that is not blank stays when what follows is trimmed at its end. -/
theorem dropEndWhile_solid {c : Char} (solid : isBlank c = false) (front cs : List Char) :
    dropEndWhile isBlank (front ++ c :: cs) = front ++ c :: dropEndWhile isBlank cs := by
  have split : front ++ c :: cs = (front ++ [c]) ++ cs := by simp
  by_cases all : dropEndWhile isBlank cs = []
  · rw [split, dropEndWhile_append_of_eq_nil all, dropEndWhile_append_singleton_of_neg solid, all]
  · rw [split, dropEndWhile_append_of_ne_nil all, List.append_assoc, List.singleton_append]

theorem chars_trimEnd (closed : ∀ q t, P q t → Closed q t) (formed : e.Formed P) :
    e.trimEnd.chars = dropEndWhile isBlank e.chars := by
  induction e with
  | done => rfl
  | word name rest ih =>
    obtain ⟨isName, -, behind⟩ := formed
    obtain ⟨front, c, rfl⟩ := (List.eq_nil_or_concat' name).resolve_left isName.1
    have solid := isBlank_eq_false_of_joinsName (List.all_eq_true.mp isName.2 c (by simp))
    rw [trimEnd, chars, chars, ih behind, List.append_assoc, List.append_assoc]
    exact (dropEndWhile_solid solid front _).symm
  | call name gap inside rest _ ih =>
    have whole (t : List Char) : name ++ (gap ++ '(' :: (inside.chars ++ ')' :: t)) =
        (name ++ gap ++ '(' :: inside.chars) ++ ')' :: t := by simp
    rw [trimEnd, chars, chars, ih formed.2.2.2, whole, whole, dropEndWhile_solid (by decide)]
  | group b inside rest _ ih =>
    have whole (t : List Char) : b.opening :: (inside.chars ++ b.closing :: t) =
        (b.opening :: inside.chars) ++ b.closing :: t := by simp
    have solid : isBlank b.closing = false := by cases b <;> decide
    rw [trimEnd, chars, chars, ih formed.2, whole, whole, dropEndWhile_solid solid]
  | literal q t rest ih =>
    have whole (u : List Char) : q :: (t ++ q :: u) = (q :: t) ++ q :: u := by simp
    have solid : isBlank q = false := of_isQuote (closed q t formed.1).quote (by decide)
    rw [trimEnd, chars, chars, ih formed.2, whole, whole, dropEndWhile_solid solid]
  | mark c rest ih =>
    obtain ⟨-, -, behind⟩ := formed
    have empty : dropEndWhile isBlank rest.chars = [] ↔ rest.trimEnd = done := by
      rw [← ih behind, chars_eq_nil_iff (formed_trimEnd behind)]
    rw [trimEnd]
    cases blank : isBlank c with
    | false =>
      rw [if_neg (by simp), chars, chars, ih behind]
      exact (dropEndWhile_solid blank [] _).symm
    | true =>
      rw [chars, ← List.singleton_append]
      by_cases all : dropEndWhile isBlank rest.chars = []
      · rw [if_pos ⟨rfl, empty.mp all⟩, dropEndWhile_append_of_eq_nil all, chars,
          dropEndWhile_eq_nil_of_all (by simpa using blank)]
      · rw [if_neg fun both => all (empty.mpr both.2), dropEndWhile_append_of_ne_nil all, chars, ih behind,
          List.singleton_append]

theorem formed_trim (formed : e.Formed P) : e.trim.Formed P := formed_trimEnd (formed_trimStart formed)

theorem chars_trim (closed : ∀ q t, P q t → Closed q t) (formed : e.Formed P) :
    e.trim.chars = stripChars e.chars := by
  rw [trim, chars_trimEnd closed (formed_trimStart formed), chars_trimStart closed formed, stripChars, trimWhile]

theorem formed_arguments (formed : e.Formed P) : ∀ argument ∈ e.arguments, argument.Formed P := by
  intro argument member
  obtain ⟨inParts, -⟩ := List.mem_filter.mp member
  obtain ⟨part, source, rfl⟩ := List.mem_map.mp inParts
  exact formed_trim (formed_parts formed part source)

/-- The parts that the scanner finds are the arguments. -/
theorem splitTopLevel_chars (closed : ∀ q t, P q t → Closed q t) (formed : e.Formed P) :
    splitTopLevel ',' e.chars = e.arguments.map chars := by
  have trimmed : (e.parts.map chars).map stripChars = (e.parts.map trim).map chars := by
    rw [List.map_map, List.map_map]
    exact List.map_congr_left fun part member => (chars_trim closed (formed_parts formed part member)).symm
  rw [splitTopLevel, partsFrom_chars closed formed, trimmed, arguments, List.filter_map]
  refine congrArg (List.map chars) (List.filter_congr fun part member => ?_)
  obtain ⟨part, inParts, rfl⟩ := List.mem_map.mp member
  have empty := chars_eq_nil_iff (formed_trim (formed_parts formed part inParts))
  simp [empty]

end Code

end Recast.ClassExpr
