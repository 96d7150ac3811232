import Recast.Proofs.ClassExpr.Calls

/-!
# Entries of a variant call

The entries of the object that a variant call takes are rewritten as text: each is cut at its first colon,
wherever that stands. Where no literal in front of it holds a colon, the text that results is code again,
the entry with the blanks around that colon made one, and a name behind it resolved.
-/

set_option autoImplicit false

namespace Recast.ClassExpr

open Recast.Text

namespace Code

/-! ## Rewritten entries -/

/-- No literal in front of the first colon holds one. -/
def colonClear : Code → Bool
  | done => true
  | word _ rest => rest.colonClear
  | call _ _ inside rest => inside.colonClear && (inside.chars.contains ':' || rest.colonClear)
  | group _ inside rest => inside.colonClear && (inside.chars.contains ':' || rest.colonClear)
  | literal _ contents rest => !contents.contains ':' && rest.colonClear
  | mark c rest => c == ':' || rest.colonClear

/-- Puts a namespace in front of an identifier that stands alone. -/
def prefixed (space : List Char) : Code → Code
  | word name done => if isIdentifier name then word (space ++ name) done else word name done
  | e => e

def startsColon : Code → Bool
  | mark c _ => c == ':'
  | _ => false

/-- No blank in front of the first colon and one behind it, and the namespace in front of an identifier that
is all that follows. -/
def tighten (space : List Char) : Code → Code
  | done => done
  | word name rest => word name (rest.tighten space)
  | call name gap inside rest =>
    if inside.chars.contains ':' then call name gap (inside.tighten []) rest
    else call name gap inside (rest.tighten space)
  | group b inside rest =>
    if inside.chars.contains ':' then group b (inside.tighten []) rest else group b inside (rest.tighten space)
  | literal q contents rest => literal q contents (rest.tighten space)
  | mark c rest =>
    if c = ':' then mark ':' (mark ' ' (rest.trimStart.prefixed space))
    else if isBlank c ∧ (rest.tighten space).startsColon then rest.tighten space
    else mark c (rest.tighten space)

def keyAndValue (entry : Code) : List Char × List Char := argumentParts entry.chars

/-- An entry with its value resolved in a namespace. -/
def resolvedEntry (space : List Char) (entry : Code) : Code :=
  if isIdentifier entry.keyAndValue.2 ∧ space = [] ∧ entry.keyAndValue.1 = entry.keyAndValue.2 then
    word entry.keyAndValue.1 done
  else if entry.chars.contains ':' then entry.tighten space
  else entry.append (mark ':' (mark ' ' (entry.prefixed space)))

/-- An entry that has something behind its colon, and no colon in a literal in front of it. -/
def Keyed (entry : Code) : Prop := entry.colonClear = true ∧ entry.chars.getLast? ≠ some ':'

instance (entry : Code) : Decidable entry.Keyed := inferInstanceAs (Decidable (_ ∧ _))

def list : List Code → Code
  | [] => done
  | [e] => e
  | e :: next :: es => e.append (mark ',' (mark ' ' (list (next :: es))))

/-! ## Names that stand alone -/

variable {P : Char → List Char → Prop} {e : Code}

/-- Code that only has characters of names is one name. -/
theorem eq_word_of_joinsName (closed : ∀ q t, P q t → Closed q t) (formed : e.Formed P) (nonempty : e.chars ≠ [])
    (joined : ∀ c ∈ e.chars, joinsName c = true) : e = word e.chars done := by
  have starts {e : Code} (formed : e.Formed P) (joined : ∀ c ∈ e.chars, joinsName c = true)
      (apart : e.startsName = false) : e = done := by
    rw [← any_joinsName_head closed formed] at apart
    rw [← chars_eq_nil_iff formed]
    cases shape : e.chars with
    | nil => rfl
    | cons c t => simp [shape, joined c (by simp [shape])] at apart
  cases e with
  | word name rest =>
    have alone : rest = done := by
      have apart := formed.2.1
      rw [Code.apart, Bool.and_eq_true, Bool.not_eq_true'] at apart
      exact starts formed.2.2 (fun c member => joined c (by simp [chars, member])) apart.1
    rw [alone, chars, chars, List.append_nil]
  | call name gap inside rest =>
    exact absurd (joined '(' (by simp [chars])) (by decide)
  | _ => exact absurd (congrArg chars (starts formed joined rfl)) nonempty

theorem joinsName_of_isIdentifier {t : List Char} (h : isIdentifier t = true) : ∀ c ∈ t, joinsName c = true := by
  cases t with
  | nil => simp
  | cons c t =>
    simp only [isIdentifier, Bool.and_eq_true, Bool.or_eq_true, beq_iff_eq] at h
    refine List.forall_mem_cons.mpr ⟨?_, fun d member => ?_⟩
    · rcases h.1 with (letter | rfl) | rfl
      · have alphanumeric : c.isAlphanum = true := by simp [Char.isAlphanum, letter]
        have word := isWord_of_isAlphanum c (val_lt_of_isAlphanum alphanumeric) alphanumeric
        simp [joinsName, word]
      · decide
      · decide
    · have continues := List.all_eq_true.mp h.2 d member
      simp only [continuesName, Bool.or_eq_true, beq_iff_eq] at continues
      rcases continues with word | rfl
      · simp [joinsName, word]
      · decide

theorem isName_of_isIdentifier {t : List Char} (h : isIdentifier t = true) : IsName t := by
  refine ⟨?_, List.all_eq_true.mpr (joinsName_of_isIdentifier h)⟩
  rintro rfl
  cases h

theorem stripChars_eq_self_of_joinsName {t : List Char} (joined : ∀ c ∈ t, joinsName c = true) : stripChars t = t := by
  have solid {c : Char} (member : c ∈ t) : isBlank c = false := isBlank_eq_false_of_joinsName (joined c member)
  rw [stripChars, trimWhile_eq_self_iff, dropWhile_eq_self_iff_head, dropEndWhile_eq_self_iff_getLast]
  constructor
  · cases head : t.head? with
    | none => rfl
    | some c => exact solid (List.mem_of_head? head)
  · cases last : t.getLast? with
    | none => rfl
    | some c => exact solid (List.mem_of_getLast? last)

/-- A value with the namespace in front of an identifier. -/
def spaced (space value : List Char) : List Char := if isIdentifier value then space ++ value else value

theorem prefixed_of_ne {space : List Char} (h : ∀ name, e ≠ word name done) : e.prefixed space = e := by
  rw [prefixed.eq_def]
  split
  · exact absurd rfl (h _)
  · rfl

theorem chars_prefixed (closed : ∀ q t, P q t → Closed q t) (formed : e.Formed P) (space : List Char) :
    (e.prefixed space).chars = spaced space e.chars := by
  by_cases single : ∃ name, e = word name done
  · obtain ⟨name, rfl⟩ := single
    rw [prefixed, spaced]
    simp only [chars, List.append_nil]
    split <;> simp [chars]
  · rw [prefixed_of_ne fun name same => single ⟨name, same⟩, spaced, if_neg]
    intro identifier
    refine single ⟨_, eq_word_of_joinsName closed formed ?_ (joinsName_of_isIdentifier identifier)⟩
    exact (isName_of_isIdentifier identifier).1

theorem formed_prefixed {space : List Char} (joined : space.all joinsName = true) (formed : e.Formed P) :
    (e.prefixed space).Formed P := by
  rw [prefixed.eq_def]
  split
  · split
    · rename_i name identifier
      have isName := isName_of_isIdentifier identifier
      exact ⟨⟨by simp [isName.1], by simpa [joined] using isName.2⟩, rfl, trivial⟩
    · exact formed
  · exact formed

/-! ## Around the first colon -/

section Tighten

variable {space : List Char}

@[simp]
theorem spaced_nil (value : List Char) : spaced [] value = value := by
  rw [spaced, List.nil_append, ite_self]

/-- Text with a bracket in it is no identifier. -/
theorem spaced_of_mem {value : List Char} {c : Char} (member : c ∈ value) (other : joinsName c = false) :
    spaced space value = value := by
  refine if_neg fun identifier => ?_
  simpa [other] using joinsName_of_isIdentifier identifier c member

theorem tighten_startsLike (e : Code) : (e.tighten space).StartsLike e := by
  induction e with
  | done => exact .done _
  | word name rest => exact ⟨fun h => h, fun h => h⟩
  | call name gap inside rest =>
    rw [tighten]
    split <;> exact ⟨fun h => h, fun h => h⟩
  | group b inside rest =>
    rw [tighten]
    split <;> exact ⟨fun h => h, fun h => h⟩
  | literal q t rest => exact ⟨fun h => h, fun h => h⟩
  | mark c rest ih =>
    rw [tighten]
    split
    · exact ⟨fun _ => rfl, fun _ => rfl⟩
    · split
      · rename_i before
        obtain ⟨-, colon⟩ := before
        cases shape : rest.tighten space with
        | mark d behind =>
          rw [shape, startsColon, beq_iff_eq] at colon
          subst colon
          exact ⟨fun _ => rfl, fun _ => rfl⟩
        | _ => simp [shape, startsColon] at colon
      · exact ih.mark c

theorem formed_tighten (joined : space.all joinsName = true) (formed : e.Formed P) : (e.tighten space).Formed P := by
  induction e generalizing space with
  | done => trivial
  | word name rest ih =>
    exact ⟨formed.1, rest.tighten_startsLike.apart formed.2.1, ih joined formed.2.2⟩
  | call name gap inside rest ihInside ih =>
    rw [tighten]
    split
    · exact ⟨formed.1, formed.2.1, ihInside rfl formed.2.2.1, formed.2.2.2⟩
    · exact ⟨formed.1, formed.2.1, formed.2.2.1, ih joined formed.2.2.2⟩
  | group b inside rest ihInside ih =>
    rw [tighten]
    split
    · exact ⟨ihInside rfl formed.1, formed.2⟩
    · exact ⟨formed.1, ih joined formed.2⟩
  | literal q t rest ih => exact ⟨formed.1, ih joined formed.2⟩
  | mark c rest ih =>
    rw [tighten]
    split
    · refine ⟨by decide, by decide, by decide, by decide, ?_⟩
      exact formed_prefixed joined (formed_trimStart formed.2.2)
    · split
      · exact ih joined formed.2.2
      · exact ⟨formed.1, formed.2.1, ih joined formed.2.2⟩

theorem startsColon_iff (closed : ∀ q t, P q t → Closed q t) (formed : e.Formed P) :
    e.startsColon = true ↔ e.chars.head? = some ':' := by
  have named (starts : e.startsName = true) : e.chars.head? ≠ some ':' := by
    intro head
    have joined := any_joinsName_head closed formed
    rw [head, starts] at joined
    exact absurd joined (by decide)
  cases e with
  | done => simp [startsColon, chars]
  | word name rest => simpa [startsColon] using named rfl
  | call name gap inside rest => simpa [startsColon] using named rfl
  | group b inside rest => cases b <;> simp [startsColon, chars, Bracket.opening]
  | literal q t rest =>
    have other : q ≠ ':' := by
      rintro rfl
      exact absurd (closed _ t formed.1).quote (by decide)
    simpa [startsColon, chars] using other
  | mark c rest => simp [startsColon, chars]

theorem colon_not_mem_name {name : List Char} (h : IsName name) : ':' ∉ name := fun member =>
  absurd (List.all_eq_true.mp h.2 ':' member) (by decide)

theorem colon_not_mem_gap {gap : List Char} (h : gap.all isBlank = true) : ':' ∉ gap := fun member =>
  absurd (List.all_eq_true.mp h ':' member) (by decide)

/-- How code with a colon comes out cut at the first one. -/
def CutAtColon (space : List Char) (text tight : List Char) : Prop :=
  ∃ key value, text = key ++ ':' :: value ∧ ':' ∉ key ∧
    tight = dropEndWhile isBlank key ++ (": ".toList ++ spaced space (value.dropWhile isBlank))

/-- What stands in front and ends with something solid stays as it is. -/
theorem CutAtColon.front {text tight : List Char} (front : List Char) {c : Char} (solid : isBlank c = false)
    (free : ':' ∉ front ++ [c]) (h : CutAtColon space text tight) :
    CutAtColon space (front ++ c :: text) (front ++ c :: tight) := by
  obtain ⟨key, value, rfl, clear, rfl⟩ := h
  refine ⟨front ++ c :: key, value, by simp, ?_, ?_⟩
  · simp only [List.mem_append, List.mem_cons, List.not_mem_nil, or_false, not_or] at free ⊢
    exact ⟨free.1, free.2, clear⟩
  · rw [dropEndWhile_solid solid]
    simp

/-- What stands behind a bracket stays as it is, and no name is alone in front of it. -/
theorem CutAtColon.back {text tight : List Char} (space back : List Char) {c : Char} (solid : isBlank c = false)
    (other : joinsName c = false) (h : CutAtColon [] text tight) :
    CutAtColon space (text ++ c :: back) (tight ++ c :: back) := by
  obtain ⟨key, value, rfl, clear, rfl⟩ := h
  refine ⟨key, value ++ c :: back, by simp, clear, ?_⟩
  have trimmed : (value ++ c :: back).dropWhile isBlank = value.dropWhile isBlank ++ c :: back := by
    rw [List.dropWhile_append]
    split
    · rename_i empty
      rw [List.isEmpty_iff.mp empty, List.dropWhile_cons_of_neg (by simp [solid]), List.nil_append]
    · rfl
  have kept : spaced space (value.dropWhile isBlank ++ c :: back) = value.dropWhile isBlank ++ c :: back :=
    spaced_of_mem (List.mem_append_right _ List.mem_cons_self) other
  rw [trimmed, kept, spaced_nil]
  simp

/-- Behind a bracket the first colon stands in what the bracket holds, or else behind that. -/
theorem CutAtColon.bracketed {lead inside tight rest tight' : List Char} (b : Bracket) (free : ':' ∉ lead)
    (within : ':' ∈ inside → CutAtColon [] inside tight)
    (behind : ':' ∉ inside → ':' ∈ rest → CutAtColon space rest tight')
    (colon : ':' ∈ lead ++ b.opening :: (inside ++ b.closing :: rest)) :
    CutAtColon space (lead ++ b.opening :: (inside ++ b.closing :: rest))
      (lead ++ b.opening ::
        (if inside.contains ':' then tight ++ b.closing :: rest else inside ++ b.closing :: tight')) := by
  have opening : isBlank b.opening = false ∧ ':' ≠ b.opening := by cases b <;> decide
  have closing : isBlank b.closing = false ∧ joinsName b.closing = false ∧ ':' ≠ b.closing := by
    cases b <;> decide
  split
  · rename_i here
    have cut := (within (by simpa using here)).back space rest closing.1 closing.2.1
    exact cut.front lead opening.1 (by simp [free, opening.2])
  · rename_i here
    have nowhere : ':' ∉ inside := by simpa using here
    have later := behind nowhere (by simpa [free, opening.2, closing.2.2, nowhere] using colon)
    have cut := later.front (lead ++ b.opening :: inside) closing.1 (by simp [free, opening.2, closing.2.2, nowhere])
    simpa using cut

/-- A blank right in front of the first colon goes, and any other one stays. -/
theorem CutAtColon.blank {text tight : List Char} {c : Char} (blank : isBlank c = true)
    (h : CutAtColon space text tight) :
    CutAtColon space (c :: text) (if tight.head? = some ':' then tight else c :: tight) := by
  have other : ':' ≠ c := by
    rintro rfl
    exact absurd blank (by decide)
  obtain ⟨key, value, rfl, free, rfl⟩ := h
  refine ⟨c :: key, value, rfl, by simp [free, other], ?_⟩
  rw [← List.singleton_append (l := key)]
  cases all : dropEndWhile isBlank key with
  | nil =>
    have front : dropEndWhile isBlank ([c] ++ key) = [] := by
      rw [dropEndWhile_append_of_eq_nil all, dropEndWhile_eq_nil_of_all (by simpa using blank)]
    rw [front]
    exact if_pos rfl
  | cons d kept =>
    have first : d ∈ key :=
      (List.rdropWhile_prefix isBlank key).subset (show d ∈ dropEndWhile isBlank key by simp [all])
    have differs : d ≠ ':' := fun same => free (same ▸ first)
    rw [if_neg (by simpa using differs), dropEndWhile_append_of_ne_nil (by simp [all]), all]
    rfl

/-- Code with a colon is cut at the first one. -/
theorem chars_tighten (closed : ∀ q t, P q t → Closed q t) (joined : space.all joinsName = true)
    (formed : e.Formed P) (clear : e.colonClear = true) (colon : ':' ∈ e.chars) :
    CutAtColon space e.chars (e.tighten space).chars := by
  -- inside brackets no name is alone, so there the namespace is empty
  induction e generalizing space with
  | done => simp [chars] at colon
  | word name rest ih =>
    obtain ⟨isName, apart, behind⟩ := formed
    obtain ⟨front, c, rfl⟩ := (List.eq_nil_or_concat' name).resolve_left isName.1
    have solid := isBlank_eq_false_of_joinsName (List.all_eq_true.mp isName.2 c (by simp))
    have free := colon_not_mem_name isName
    have later := ih joined behind clear ((List.mem_append.mp colon).resolve_left free)
    simpa [tighten, chars] using later.front front solid free
  | call name gap inside rest ihInside ih =>
    obtain ⟨isName, blank, within, behind⟩ := formed
    rw [colonClear, Bool.and_eq_true, Bool.or_eq_true] at clear
    have free : ':' ∉ name ++ gap := by simp [colon_not_mem_name isName, colon_not_mem_gap blank]
    have cut := CutAtColon.bracketed .round free (ihInside rfl within clear.1)
      (fun nowhere => ih joined behind (clear.2.resolve_left (by simpa using nowhere)))
      (by simpa [chars, Bracket.opening, Bracket.closing] using colon)
    rw [tighten]
    split
    · rename_i here
      rw [if_pos here] at cut
      simpa [chars, Bracket.opening, Bracket.closing] using cut
    · rename_i here
      rw [if_neg here] at cut
      simpa [chars, Bracket.opening, Bracket.closing] using cut
  | group b inside rest ihInside ih =>
    obtain ⟨within, behind⟩ := formed
    rw [colonClear, Bool.and_eq_true, Bool.or_eq_true] at clear
    have cut := CutAtColon.bracketed b (List.not_mem_nil (a := ':')) (ihInside rfl within clear.1)
      (fun nowhere => ih joined behind (clear.2.resolve_left (by simpa using nowhere))) colon
    rw [tighten]
    split
    · rename_i here
      rw [if_pos here] at cut
      exact cut
    · rename_i here
      rw [if_neg here] at cut
      exact cut
  | literal q t rest ih =>
    have solid : isBlank q = false ∧ ':' ≠ q := of_isQuote (closed q t formed.1).quote (by decide)
    rw [colonClear, Bool.and_eq_true, Bool.not_eq_true'] at clear
    have nowhere : ':' ∉ t := by simpa using clear.1
    have later := ih joined formed.2 clear.2 (by simpa [chars, solid.2, nowhere] using colon)
    have cut := later.front (q :: t) solid.1 (by simp [solid.2, nowhere])
    simpa [tighten, chars] using cut
  | mark c rest ih =>
    obtain ⟨-, -, behind⟩ := formed
    rw [tighten]
    split
    · rename_i here
      have trimmed := formed_trimStart behind
      refine ⟨[], rest.chars, by rw [here, chars, List.nil_append], by simp, ?_⟩
      rw [chars, chars, chars_prefixed closed trimmed, chars_trimStart closed behind]
      rfl
    · rename_i here
      rw [colonClear, Bool.or_eq_true, beq_iff_eq] at clear
      have cut := ih joined behind (clear.resolve_left here) (by simpa [chars, Ne.symm here] using colon)
      cases blank : isBlank c with
      | false =>
        rw [if_neg (by simp)]
        exact cut.front [] blank (by simpa using Ne.symm here)
      | true =>
        have starts := startsColon_iff closed (formed_tighten joined behind)
        have dropped := cut.blank blank
        simp only [← starts] at dropped
        simpa only [true_and, apply_ite chars, chars] using dropped

theorem resolvedArgument_eq (key value : List Char) :
    resolvedArgument space key value =
      if isIdentifier value ∧ space = [] ∧ key = value then key
      else key ++ (": ".toList ++ spaced space value) := by
  rw [resolvedArgument, spaced]
  cases isIdentifier value with
  | false => simp
  | true => by_cases bare : space = [] <;> by_cases same : key = value <;> simp [bare, same]

theorem forall_ne_colon {t : List Char} (free : ':' ∉ t) : ∀ c ∈ t, (decide (c ≠ ':')) = true := by
  intro c member
  rw [decide_eq_true_iff]
  rintro rfl
  exact free member

theorem argumentParts_cut {key value : List Char} (free : ':' ∉ key)
    (trimmed : stripChars (key ++ ':' :: value) = key ++ ':' :: value) (nonempty : value ≠ []) :
    argumentParts (key ++ ':' :: value) = (dropEndWhile isBlank key, value.dropWhile isBlank) := by
  obtain ⟨front, back⟩ := trimWhile_eq_self_iff.mp trimmed
  rw [dropWhile_eq_self_iff_head] at front
  rw [dropEndWhile_eq_self_iff_getLast] at back
  have keyFront : key.dropWhile isBlank = key := by
    rw [dropWhile_eq_self_iff_head]
    cases key with
    | nil => rfl
    | cons c key => exact front
  obtain ⟨value, c, rfl⟩ := (List.eq_nil_or_concat' value).resolve_left nonempty
  have solid : isBlank c = false := by
    have whole : key ++ ':' :: (value ++ [c]) = (key ++ ':' :: value) ++ [c] := by simp
    rwa [whole, List.getLast?_concat] at back
  have valueFront : (value ++ [c]).dropWhile isBlank = value.dropWhile isBlank ++ [c] := by
    simp [List.dropWhile_append, solid]
  rw [argumentParts, List.takeWhile_append_of_pos (forall_ne_colon free),
    List.dropWhile_append_of_pos (forall_ne_colon free), valueFront]
  simp [stripChars, trimWhile, keyFront, valueFront, dropEndWhile_append_singleton_of_neg solid]

theorem argumentParts_free {entry : List Char} (free : ':' ∉ entry) (trimmed : stripChars entry = entry) :
    argumentParts entry = (entry, entry) := by
  rw [argumentParts, List.takeWhile_eq_self_iff.mpr (forall_ne_colon free),
    List.dropWhile_eq_nil_iff.mpr (forall_ne_colon free), trimmed]
  rfl

theorem chars_resolvedEntry (closed : ∀ q t, P q t → Closed q t) (joined : space.all joinsName = true)
    (formed : e.Formed P) (trimmed : stripChars e.chars = e.chars) (keyed : e.Keyed) :
    (e.resolvedEntry space).chars = resolvedArgument space e.keyAndValue.1 e.keyAndValue.2 := by
  rw [resolvedArgument_eq, resolvedEntry]
  split
  · simp [chars]
  · split
    · rename_i colon
      obtain ⟨key, value, shape, free, tight⟩ :=
        chars_tighten closed joined formed keyed.1 (by simpa using colon)
      have nonempty : value ≠ [] := by
        rintro rfl
        exact keyed.2 (by simp [shape])
      rw [tight, keyAndValue, shape, argumentParts_cut free (shape ▸ trimmed) nonempty]
    · rename_i colon
      have free : ':' ∉ e.chars := by simpa using colon
      rw [keyAndValue, argumentParts_free free trimmed, chars_append, chars, chars, chars_prefixed closed formed]
      rfl

theorem append_startsLike {a b : Code} (free : b.apart = true) : (a.append b).StartsLike a := by
  have startsFree := free
  rw [Code.apart, Bool.and_eq_true, Bool.not_eq_true', Bool.not_eq_true'] at startsFree
  induction a with
  | done => exact ⟨fun _ => startsFree.1, fun _ => startsFree.2⟩
  | mark c rest ih => exact ih.mark c
  | _ => exact ⟨fun h => h, fun h => h⟩

theorem formed_append {a b : Code} (ha : a.Formed P) (hb : b.Formed P) (free : b.apart = true) :
    (a.append b).Formed P := by
  induction a with
  | done => exact hb
  | word name rest ih => exact ⟨ha.1, (append_startsLike free).apart ha.2.1, ih ha.2.2⟩
  | call name gap inside rest _ ih => exact ⟨ha.1, ha.2.1, ha.2.2.1, ih ha.2.2.2⟩
  | group k inside rest _ ih => exact ⟨ha.1, ih ha.2⟩
  | literal q t rest ih => exact ⟨ha.1, ih ha.2⟩
  | mark c rest ih => exact ⟨ha.1, ha.2.1, ih ha.2.2⟩

theorem formed_resolvedEntry (joined : space.all joinsName = true) (formed : e.Formed P) :
    (e.resolvedEntry space).Formed P := by
  rw [resolvedEntry]
  split
  · rename_i bare
    refine ⟨?_, rfl, trivial⟩
    rw [bare.2.2]
    exact isName_of_isIdentifier bare.1
  · split
    · exact formed_tighten joined formed
    · refine formed_append formed ⟨by decide, by decide, by decide, by decide, ?_⟩ rfl
      exact formed_prefixed joined formed

end Tighten

/-! ## Lists of entries -/

section List

theorem chars_list (es : List Code) : (list es).chars = joinChars ", ".toList (es.map chars) := by
  induction es with
  | nil => rfl
  | cons e es ih =>
    cases es with
    | nil => rfl
    | cons e' es =>
      rw [list, chars_append, chars, chars, ih]
      simp [joinChars]

theorem formed_list {es : List Code} (formed : ∀ e ∈ es, e.Formed P) : (list es).Formed P := by
  induction es with
  | nil => trivial
  | cons e es ih =>
    have later := ih fun e member => formed e (by simp [member])
    have here := formed e (by simp)
    cases es with
    | nil => exact here
    | cons e' es => exact formed_append here ⟨by decide, by decide, by decide, by decide, later⟩ rfl

end List

end Code

end Recast.ClassExpr
