import Recast.Proofs.Runes.Rules

/-!
# Markup in two styles

Generated markup in the older style and with runes is the same text except for three kinds of pieces:
slots, event directives and the spread of the props that are not bound. A list of `Token`s is such a
text, and a `Style` says which kinds of pieces have their new spelling already.

`upgradeMarkup_spell` says that upgrading a text of the older style gives the same text with runes,
provided that the latter does not itself look like something to upgrade. Each of the three rules
changes the pieces of its own kind and nothing else.
-/

set_option autoImplicit false

namespace Recast.Runes

open Recast.Text

/-- A character, or a piece that has two spellings. -/
inductive Token where
  | char (c : Char)
  /-- The place for the content of callers. -/
  | slot
  /-- The start of an attribute that listens to an event, up to the equals sign. -/
  | event (name : List Char)
  /-- The spread of the props that are not bound. -/
  | rest

/-- Which kinds of pieces have their new spelling. -/
structure Style where
  slot : Bool
  event : Bool
  rest : Bool

namespace Style

def older : Style := ⟨false, false, false⟩

def runes : Style := ⟨true, true, true⟩

end Style

def slotText : List Char := "<slot />".toList

def Token.text (s : Style) : Token → List Char
  | .char c => [c]
  | .slot => if s.slot then renderedChildren else slotText
  | .event name => 'o' :: 'n' :: ((if s.event then [] else [':']) ++ (name ++ ['=']))
  | .rest =>
    ['\x7b', '.', '.', '.'] ++ ((if s.rest then [] else ['$', '$']) ++ "restProps\x7d".toList)

def spell (s : Style) : List Token → List Char
  | [] => []
  | t :: ts => t.text s ++ spell s ts

/-- The last character of a token with runes. -/
def Token.last : Token → Char
  | .char c => c
  | .slot => '\x7d'
  | .event _ => '='
  | .rest => '\x7d'

/-- Whether a token may stand behind the character `previous`: an event directive does not go on with
a word, and its name is a word. -/
def Token.FitsBehind (previous : Option Char) : Token → Prop
  | .event name => previous.any isWord = false ∧ name ≠ [] ∧ ∀ c ∈ name, isWord c = true
  | _ => True

/-- Whether tokens may stand behind the character `previous`. -/
def Fits : (previous : Option Char) → List Token → Prop
  | _, [] => True
  | previous, t :: ts => t.FitsBehind previous ∧ Fits (some t.last) ts

theorem spell_append (s : Style) (front back : List Token) :
    spell s (front ++ back) = spell s front ++ spell s back := by
  induction front with
  | nil => rfl
  | cons t front ih => simp only [List.cons_append, spell, ih, List.append_assoc]

theorem spell_chars (s : Style) (text : List Char) : spell s (text.map .char) = text := by
  induction text with
  | nil => rfl
  | cons c text ih => simp only [List.map_cons, spell, Token.text, ih, List.singleton_append]

theorem lastOr_text (p : Option Char) (t : Token) : lastOr p (t.text .runes) = some t.last := by
  cases t with
  | char c => rfl
  | slot => rfl
  | event name => exact lastOr_concat p ('o' :: 'n' :: name) '='
  | rest => rfl

/-- What fits somewhere fits behind anything that is not part of a word. -/
theorem Fits.behind {p q : Option Char} {ts : List Token} (h : Fits p ts)
    (boundary : q.any isWord = false) : Fits q ts := by
  cases ts with
  | nil => trivial
  | cons t ts =>
    refine ⟨?_, h.2⟩
    cases t with
    | event name => exact ⟨boundary, h.1.2⟩
    | _ => trivial

/-! ## Characters in a spelled text -/

/-- A character with which no piece starts that has two spellings. -/
def StartsNoPiece (c : Char) : Prop := c ≠ '<' ∧ c ≠ '\x7b' ∧ c ≠ 'o'

instance (c : Char) : Decidable (StartsNoPiece c) :=
  inferInstanceAs (Decidable (c ≠ '<' ∧ c ≠ '\x7b' ∧ c ≠ 'o'))

theorem slot_text_head (s : Style) :
    ∃ more, Token.slot.text s = '<' :: more ∨ Token.slot.text s = '\x7b' :: more := by
  cases h : s.slot with
  | false => exact ⟨"slot />".toList, .inl (by simp only [Token.text, h]; rfl)⟩
  | true => exact ⟨"@render children?.()\x7d".toList, .inr (by simp only [Token.text, h]; rfl)⟩

/-- The first character of a spelled text is a token of its own, unless a piece with two spellings
starts there. -/
theorem spell_eq_cons_cases {s : Style} {ts : List Token} {c : Char} {rest : List Char}
    (h : spell s ts = c :: rest) :
    (∃ more, ts = .char c :: more ∧ spell s more = rest) ∨ c = '<' ∨ c = '\x7b' ∨
      ∃ name more, ts = .event name :: more ∧ c = 'o' ∧
        rest = 'n' :: ((if s.event then [] else [':']) ++ (name ++ '=' :: spell s more)) := by
  cases ts with
  | nil => simp [spell] at h
  | cons t more =>
    cases t with
    | char d =>
      simp only [spell, Token.text, List.singleton_append, List.cons.injEq] at h
      exact .inl ⟨more, by rw [h.1], h.2⟩
    | slot =>
      obtain ⟨tail, shape | shape⟩ := slot_text_head s
      · rw [spell, shape, List.cons_append, List.cons.injEq] at h
        exact .inr (.inl h.1.symm)
      · rw [spell, shape, List.cons_append, List.cons.injEq] at h
        exact .inr (.inr (.inl h.1.symm))
    | event name =>
      simp only [spell, Token.text, List.cons_append, List.append_assoc, List.nil_append,
        List.cons.injEq] at h
      exact .inr (.inr (.inr ⟨name, more, rfl, h.1.symm, h.2.symm⟩))
    | rest =>
      simp only [spell, Token.text, List.cons_append, List.cons.injEq] at h
      exact .inr (.inr (.inl h.1.symm))

theorem spell_eq_cons {s : Style} {ts : List Token} {c : Char} {rest : List Char}
    (start : StartsNoPiece c) (h : spell s ts = c :: rest) :
    ∃ more, ts = .char c :: more ∧ spell s more = rest := by
  rcases spell_eq_cons_cases h with token | bracket | brace | ⟨_, _, _, letter, _⟩
  · exact token
  · exact absurd bracket start.1
  · exact absurd brace start.2.1
  · exact absurd letter start.2.2

/-- An event directive starts with two certain letters. -/
theorem spell_eq_cons_o {s : Style} {ts : List Token} {c : Char} {rest : List Char} (other : c ≠ 'n')
    (h : spell s ts = 'o' :: c :: rest) :
    ∃ more, ts = .char 'o' :: more ∧ spell s more = c :: rest := by
  rcases spell_eq_cons_cases h with token | bracket | brace | ⟨_, _, _, _, letters⟩
  · exact token
  · exact absurd bracket (by decide)
  · exact absurd brace (by decide)
  · exact absurd (List.cons.inj letters).1 other

theorem spell_eq_append {s : Style} {text : List Char} {ts : List Token} {rest : List Char}
    (start : ∀ c ∈ text, StartsNoPiece c) (h : spell s ts = text ++ rest) :
    ∃ more, ts = text.map .char ++ more ∧ spell s more = rest := by
  induction text generalizing ts with
  | nil => exact ⟨ts, rfl, h⟩
  | cons c text ih =>
    obtain ⟨next, shape, behind⟩ := spell_eq_cons (start c (by simp)) h
    obtain ⟨more, rfl, tail⟩ := ih (fun d hd => start d (by simp [hd])) behind
    exact ⟨more, shape, tail⟩

/-- Text with a letter in it with which an event directive might start, but does not. -/
theorem spell_eq_append_o {s : Style} {front back rest : List Char} {c : Char} {ts : List Token}
    (startFront : ∀ d ∈ front, StartsNoPiece d) (other : c ≠ 'n')
    (startBack : ∀ d ∈ c :: back, StartsNoPiece d)
    (h : spell s ts = (front ++ 'o' :: c :: back) ++ rest) :
    ∃ more, ts = (front ++ 'o' :: c :: back).map .char ++ more ∧ spell s more = rest := by
  rw [List.append_assoc] at h
  obtain ⟨letter, rfl, atLetter⟩ := spell_eq_append startFront h
  obtain ⟨behind, rfl, tail⟩ := spell_eq_cons_o other atLetter
  obtain ⟨more, rfl, last⟩ := spell_eq_append startBack tail
  exact ⟨more, by simp, last⟩

theorem startsNoPiece_of_isBlank {c : Char} (h : isBlank c = true) : StartsNoPiece c := by
  refine ⟨?_, ?_, ?_⟩ <;> rintro rfl <;> exact absurd h (by decide)

/-! ## One rule -/

/-- A rule that takes texts from one style to another. Among the characters it finds nothing that is
not there with runes too, and it changes each piece with two spellings as the styles say. -/
structure Pass (rule : Rule (List Char)) (before after : Style) : Prop where
  char : ∀ {p : Option Char} {c : Char} {ts : List Token}, Fits (some c) ts →
    rule p (spell .runes (.char c :: ts)) = none → rule p (spell before (.char c :: ts)) = none
  piece : ∀ (p : Option Char) (t : Token), t.FitsBehind p → (∀ c, t ≠ .char c) →
    ∀ rest, substituteBehind rule p (t.text before ++ rest) =
      t.text after ++ substituteBehind rule (some t.last) rest

/-- A text that does not with runes look like something to replace is taken to the other style as a
whole. -/
theorem Pass.substituteBehind_spell {rule : Rule (List Char)} {before after : Style}
    (pass : Pass rule before after) {ts : List Token} {p : Option Char} (fits : Fits p ts)
    (silent : Silent rule p (spell .runes ts) []) :
    substituteBehind rule p (spell before ts) = spell after ts := by
  induction ts generalizing p with
  | nil => exact substituteBehind_nil _ _
  | cons t ts ih =>
    have tail := ((silent_append rule p (t.text .runes) (spell .runes ts) []).mp silent).2
    rw [lastOr_text] at tail
    by_cases isChar : ∃ c, t = .char c
    · obtain ⟨c, rfl⟩ := isChar
      have here : rule p (c :: spell before ts) = none :=
        pass.char fits.2 (by simpa [spell, Token.text] using silent.1)
      exact (substituteBehind_of_none here).trans (congrArg (c :: ·) (ih fits.2 tail))
    · have step := pass.piece p t fits.1 (fun c e => isChar ⟨c, e⟩) (spell before ts)
      exact step.trans (congrArg (t.text after ++ ·) (ih fits.2 tail))

/-- A rule passes over a piece with whose characters nothing starts that it recognizes. -/
theorem quiet_piece {rule : Rule (List Char)} {p : Option Char} {text rest : List Char} {last : Char}
    (quiet : ∀ c ∈ text, ∀ q cs, rule q (c :: cs) = none) (ends : lastOr p text = some last) :
    substituteBehind rule p (text ++ rest) = text ++ substituteBehind rule (some last) rest := by
  rw [substituteBehind_of_silent (silent_of_forall quiet p rest), ends]

theorem lastOr_event {s : Style} (p : Option Char) (name : List Char) :
    lastOr p ((Token.event name).text s) = some '=' := by
  cases h : s.event with
  | false =>
    simp only [Token.text, h, Bool.false_eq_true, if_false]
    exact lastOr_concat p ('o' :: 'n' :: ':' :: name) '='
  | true =>
    simp only [Token.text, h, if_true]
    exact lastOr_concat p ('o' :: 'n' :: name) '='

theorem mem_event_text {s : Style} {name : List Char} {c : Char}
    (h : c ∈ (Token.event name).text s) : c ∈ ['o', 'n', ':', '='] ∨ c ∈ name := by
  simp only [Token.text, List.mem_cons, List.mem_append, List.not_mem_nil, or_false] at h ⊢
  rcases h with h | h | h | h | h
  · exact .inl (.inl h)
  · exact .inl (.inr (.inl h))
  · split at h
    · simp at h
    · exact .inl (.inr (.inr (.inl (by simpa using h))))
  · exact .inr h
  · exact .inl (.inr (.inr (.inr h)))

/-! ## Slots -/

theorem slotElement_eq_none_of_silent {p q : Option Char} {c : Char} {ts : List Token}
    (silent : slotElement q (spell .runes (.char c :: ts)) = none) :
    slotElement p (spell .older (.char c :: ts)) = none := by
  by_contra found
  obtain ⟨⟨new, rest⟩, found⟩ := Option.ne_none_iff_exists'.mp found
  obtain ⟨blanks, all, shape⟩ := slotElement_eq_some found
  simp only [spell, Token.text, List.singleton_append] at shape
  obtain ⟨bracket, inside⟩ : c = '<' ∧ spell .older ts =
      (['s', 'l'] ++ 'o' :: 't' :: (blanks ++ ['/', '>'])) ++ rest := by simpa using shape
  obtain ⟨more, rfl, _⟩ := spell_eq_append_o (by simp [StartsNoPiece]) (by decide) (by
    intro d hd
    simp only [List.mem_cons, List.mem_append, List.not_mem_nil, or_false] at hd
    rcases hd with rfl | hd | rfl | rfl
    · decide
    · exact startsNoPiece_of_isBlank (all d hd)
    · decide
    · decide) inside
  have runes := slotElement_spelled q all (spell .runes more)
  rw [bracket, spell, spell_append, spell_chars] at silent
  rw [show Token.text .runes (.char '<') ++
      ((['s', 'l'] ++ 'o' :: 't' :: (blanks ++ ['/', '>'])) ++ spell .runes more) =
      "<slot".toList ++ (blanks ++ ("/>".toList ++ spell .runes more)) by simp [Token.text],
    runes] at silent
  exact absurd silent (by simp)

/-- The first rule gives slots their new spelling. -/
theorem slotElement_pass : Pass slotElement .older ⟨true, false, false⟩ where
  char _ silent := slotElement_eq_none_of_silent silent
  piece p t fits other rest := by
    have previous : ∀ q r cs, slotElement q cs = slotElement r cs := fun _ _ _ => rfl
    cases t with
    | char c => exact absurd rfl (other c)
    | slot =>
      have here : slotElement p (slotText ++ rest) = some (renderedChildren, rest) :=
        @slotElement_spelled p [' '] (List.all_eq_true.mp rfl) rest
      rw [substituteBehind_previous previous (some Token.slot.last) (lastOr p slotText)]
      exact substituteBehind_of_some (by decide) here
    | event name =>
      refine quiet_piece (fun c hc q cs => slotElement_eq_none_of_ne ?_ q cs) (lastOr_event p name)
      rintro rfl
      rcases mem_event_text hc with hc | hc
      · exact absurd hc (by decide)
      · exact absurd (fits.2.2 _ hc) (by decide)
    | rest =>
      refine quiet_piece (fun c hc q cs => slotElement_eq_none_of_ne ?_ q cs) rfl
      rintro rfl
      exact absurd hc (by decide)

/-! ## Event directives -/

theorem eventDirective_eq_none_of_second {c : Char} (h : c ≠ 'n') (p : Option Char)
    (cs : List Char) : eventDirective p ('o' :: c :: cs) = none := by
  by_contra found
  obtain ⟨⟨new, rest⟩, found⟩ := Option.ne_none_iff_exists'.mp found
  obtain ⟨_, event, _, _, shape⟩ := eventDirective_eq_some found
  have letter : c = 'n' := by
    simp only [show "on:".toList = ['o', 'n', ':'] from rfl, List.cons_append, List.cons.injEq]
      at shape
    exact shape.2.1
  exact h letter

/-- Inside a word no event directive starts, so a word is spelled by characters. -/
theorem spell_eq_word {s : Style} {word rest : List Char} {p : Option Char} {ts : List Token}
    (fits : Fits p ts) (inWord : p.any isWord = true) (all : ∀ c ∈ word, isWord c = true)
    (h : spell s ts = word ++ rest) :
    ∃ more, ts = word.map .char ++ more ∧ spell s more = rest := by
  induction word generalizing p ts with
  | nil => exact ⟨ts, rfl, h⟩
  | cons c word ih =>
    have isWordChar : isWord c = true := all c (by simp)
    rcases spell_eq_cons_cases h with ⟨next, shape, behind⟩ | rfl | rfl | ⟨name, more, shape, _⟩
    · rw [shape] at fits
      obtain ⟨more, rfl, tail⟩ :=
        ih fits.2 (by simpa [Token.last]) (fun d hd => all d (by simp [hd])) behind
      exact ⟨more, shape, tail⟩
    · exact absurd isWordChar (by decide)
    · exact absurd isWordChar (by decide)
    · rw [shape] at fits
      have boundary := fits.1.1
      rw [inWord] at boundary
      exact absurd boundary (by simp)

/-- A word in front of an equals sign is spelled by characters, also where an event directive of the
older style might start. -/
theorem spell_eq_event {s : Style} (older : s.event = false) {word rest : List Char} {p : Option Char}
    {ts : List Token} (fits : Fits p ts) (nonempty : word ≠ []) (all : ∀ c ∈ word, isWord c = true)
    (h : spell s ts = word ++ '=' :: rest) :
    ∃ more, ts = (word ++ ['=']).map .char ++ more ∧ spell s more = rest := by
  obtain ⟨c, word, rfl⟩ := List.exists_cons_of_ne_nil nonempty
  have isWordChar : isWord c = true := all c (by simp)
  have inside : ∀ d ∈ word, isWord d = true := fun d hd => all d (by simp [hd])
  rcases spell_eq_cons_cases h with ⟨next, rfl, behind⟩ | rfl | rfl | ⟨name, more, rfl, _, letters⟩
  · obtain ⟨atEquals, rfl, equals⟩ := spell_eq_word fits.2 (by simpa [Token.last]) inside behind
    obtain ⟨more, rfl, tail⟩ := spell_eq_cons (by decide) equals
    exact ⟨more, by simp, tail⟩
  · exact absurd isWordChar (by decide)
  · exact absurd isWordChar (by decide)
  · -- the colon of the directive would have to be part of the word or the equals sign
    simp only [older, Bool.false_eq_true, if_false, List.cons_append, List.nil_append] at letters
    match word with
    | [] => exact absurd (List.cons.inj letters).1 (by decide)
    | [_] => exact absurd (List.cons.inj (List.cons.inj letters).2).1 (by decide)
    | _ :: d :: _ =>
      have colon : d = ':' := (List.cons.inj (List.cons.inj letters).2).1
      exact absurd (inside d (by simp)) (by rw [colon]; decide)

theorem eventDirective_eq_none_of_silent {p : Option Char} {c : Char} {ts : List Token}
    (fits : Fits (some c) ts) (silent : eventDirective p (spell .runes (.char c :: ts)) = none) :
    eventDirective p (spell ⟨true, false, false⟩ (.char c :: ts)) = none := by
  by_contra found
  obtain ⟨⟨new, rest⟩, found⟩ := Option.ne_none_iff_exists'.mp found
  obtain ⟨boundary, event, nonempty, all, shape⟩ := eventDirective_eq_some found
  simp only [spell, Token.text, List.singleton_append] at shape
  obtain ⟨letter, inside⟩ : c = 'o' ∧ spell ⟨true, false, false⟩ ts =
      ['n', ':'] ++ (event ++ '=' :: rest) := by simpa using shape
  obtain ⟨atName, rfl, name⟩ := spell_eq_append (by simp [StartsNoPiece]) inside
  obtain ⟨more, rfl, _⟩ := spell_eq_event rfl fits.2.2 nonempty all name
  have runes := eventDirective_spelled boundary nonempty all (spell .runes more)
  have text : spell .runes (.char c :: (['n', ':'].map .char ++ ((event ++ ['=']).map .char ++ more))) =
      "on:".toList ++ (event ++ '=' :: spell .runes more) := by
    rw [letter, spell, spell_append, spell_chars, spell_append, spell_chars]
    simp [Token.text]
  rw [text, runes] at silent
  exact absurd silent (by simp)

/-- The second rule gives event directives their new spelling. -/
theorem eventDirective_pass : Pass eventDirective ⟨true, false, false⟩ ⟨true, true, false⟩ where
  char fits silent := eventDirective_eq_none_of_silent fits silent
  piece p t fits other rest := by
    cases t with
    | char c => exact absurd rfl (other c)
    | slot =>
      refine quiet_piece (fun c hc q cs => eventDirective_eq_none_of_ne ?_ q cs) rfl
      rintro rfl
      exact absurd hc (by decide)
    | event name =>
      have here : eventDirective p ((Token.event name).text ⟨true, false, false⟩ ++ rest) =
          some ((Token.event name).text ⟨true, true, false⟩, rest) := by
        simpa [Token.text] using eventDirective_spelled fits.1 fits.2.1 fits.2.2 rest
      have step := substituteBehind_of_some (by simp [Token.text]) here
      rwa [lastOr_event] at step
    | rest =>
      have front : Silent eventDirective p
          ['\x7b', '.', '.', '.', '$', '$', 'r', 'e', 's', 't', 'P', 'r']
          (['o', 'p', 's', '\x7d'] ++ rest) := by
        refine silent_of_forall (fun c hc q cs => eventDirective_eq_none_of_ne ?_ q cs) _ _
        rintro rfl
        exact absurd hc (by decide)
      have back : Silent eventDirective (some 'o') ['p', 's', '\x7d'] rest := by
        refine silent_of_forall (fun c hc q cs => eventDirective_eq_none_of_ne ?_ q cs) _ _
        rintro rfl
        exact absurd hc (by decide)
      have whole := (silent_append eventDirective p _ ['o', 'p', 's', '\x7d'] rest).mpr
        ⟨front, eventDirective_eq_none_of_second (by decide) _ _, back⟩
      exact substituteBehind_of_silent whole

/-! ## The rest of the props -/

theorem head?_spell (ts : List Token) :
    (spell .runes ts).head? = (spell ⟨true, true, false⟩ ts).head? := by
  cases ts with
  | nil => rfl
  | cons t ts => cases t <;> rfl

theorem spell_eq_legacyName {s : Style} {name rest : List Char} {ts : List Token}
    (known : name ∈ legacyNames) (h : spell s ts = name ++ rest) :
    ∃ more, ts = name.map .char ++ more ∧ spell s more = rest := by
  simp only [legacyNames, List.mem_cons, List.not_mem_nil, or_false] at known
  rcases known with rfl | rfl
  · exact @spell_eq_append_o s ['$', '$', 'r', 'e', 's', 't', 'P', 'r'] ['s'] rest 'p' ts
      (by simp [StartsNoPiece]) (by decide) (by simp [StartsNoPiece]) h
  · exact @spell_eq_append_o s ['$', '$', 'p', 'r'] ['s'] rest 'p' ts (by simp [StartsNoPiece])
      (by decide) (by simp [StartsNoPiece]) h

theorem legacyRest_eq_none_of_silent {p : Option Char} {ts : List Token}
    (silent : legacyRest p (spell .runes ts) = none) :
    legacyRest p (spell ⟨true, true, false⟩ ts) = none := by
  by_contra found
  obtain ⟨⟨new, rest⟩, found⟩ := Option.ne_none_iff_exists'.mp found
  obtain ⟨name, known, shape, boundary⟩ := legacyRest_eq_some found
  obtain ⟨more, rfl, rfl⟩ := spell_eq_legacyName known shape
  have runes : legacyRest p (name ++ spell .runes more) = some ("restProps".toList, _) :=
    legacyRest_spelled p known (by rwa [head?_spell])
  rw [spell_append, spell_chars, runes] at silent
  exact absurd silent (by simp)

/-- The third rule gives the spread of the props that are not bound its new spelling. -/
theorem legacyRest_pass : Pass legacyRest ⟨true, true, false⟩ .runes where
  char _ silent := legacyRest_eq_none_of_silent silent
  piece p t fits other rest := by
    cases t with
    | char c => exact absurd rfl (other c)
    | slot =>
      refine quiet_piece (fun c hc q cs => legacyRest_eq_none_of_ne ?_ q cs) rfl
      rintro rfl
      exact absurd hc (by decide)
    | event name =>
      refine quiet_piece (fun c hc q cs => legacyRest_eq_none_of_ne ?_ q cs) (lastOr_event p name)
      rintro rfl
      rcases mem_event_text hc with hc | hc
      · exact absurd hc (by decide)
      · exact absurd (fits.2.2 _ hc) (by decide)
    | rest =>
      have dots : Silent legacyRest p ['\x7b', '.', '.', '.']
          ("$$restProps".toList ++ '\x7d' :: rest) := by
        refine silent_of_forall (fun c hc q cs => legacyRest_eq_none_of_ne ?_ q cs) _ _
        rintro rfl
        exact absurd hc (by decide)
      have name : legacyRest (some '.') ("$$restProps".toList ++ '\x7d' :: rest) =
          some ("restProps".toList, '\x7d' :: rest) :=
        legacyRest_spelled _ (.head _) (by simp; decide)
      have brace : legacyRest (some 's') ('\x7d' :: rest) = none :=
        legacyRest_eq_none_of_ne (by decide) _ _
      have start := substituteBehind_of_silent dots
      have middle := substituteBehind_of_some (by decide) name
      have tail := substituteBehind_of_none brace
      calc substituteBehind legacyRest p (Token.rest.text ⟨true, true, false⟩ ++ rest)
          = ['\x7b', '.', '.', '.'] ++ substituteBehind legacyRest (some '.')
              ("$$restProps".toList ++ '\x7d' :: rest) := start
        _ = ['\x7b', '.', '.', '.'] ++ ("restProps".toList ++
              substituteBehind legacyRest (some 's') ('\x7d' :: rest)) := by rw [middle]; rfl
        _ = Token.rest.text .runes ++ substituteBehind legacyRest (some Token.rest.last) rest := by
              rw [tail]; rfl

/-! ## All rules -/

/-- Upgrading a text of the older style gives the same text with runes. -/
theorem upgradeMarkup_spell {ts : List Token} (fits : Fits none ts)
    (slots : Silent slotElement none (spell .runes ts) [])
    (events : Silent eventDirective none (spell .runes ts) [])
    (rests : Silent legacyRest none (spell .runes ts) []) :
    upgradeMarkup (spell .older ts) = spell .runes ts := by
  rw [upgradeMarkup, substitute_eq, substitute_eq, substitute_eq,
    slotElement_pass.substituteBehind_spell fits slots,
    eventDirective_pass.substituteBehind_spell fits events,
    legacyRest_pass.substituteBehind_spell fits rests]

end Recast.Runes
