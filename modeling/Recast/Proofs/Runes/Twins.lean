import Recast.Proofs.Runes.Style

/-!
# Twins

Two texts are twins if one is the other with runes. Twins can be put together, and blanks around them
can be dropped on both sides at once.
-/

set_option autoImplicit false

namespace Recast.Runes

open Recast.Text

/-- Texts of which the second is the first with runes, wherever they stand. -/
def Twins (older newer : List Char) : Prop :=
  ∃ ts, (∀ p, Fits p ts) ∧ spell .older ts = older ∧ spell .runes ts = newer

/-- Texts of which the second is the first with runes, where they do not go on with a word. -/
def TwinsApart (older newer : List Char) : Prop :=
  ∃ ts, Fits none ts ∧ spell .older ts = older ∧ spell .runes ts = newer

theorem Twins.apart {l r : List Char} (h : Twins l r) : TwinsApart l r := by
  obtain ⟨ts, fits, older, newer⟩ := h
  exact ⟨ts, fits none, older, newer⟩

theorem fits_append {p : Option Char} {front back : List Token} (hf : Fits p front)
    (hb : ∀ q, Fits q back) : Fits p (front ++ back) := by
  induction front generalizing p with
  | nil => exact hb p
  | cons t front ih => exact ⟨hf.1, ih hf.2⟩

theorem fits_left {p : Option Char} {front back : List Token} (h : Fits p (front ++ back)) :
    Fits p front := by
  induction front generalizing p with
  | nil => trivial
  | cons t front ih => exact ⟨h.1, ih h.2⟩

theorem fits_chars (p : Option Char) (text : List Char) : Fits p (text.map .char) := by
  induction text generalizing p with
  | nil => trivial
  | cons c text ih => exact ⟨trivial, ih _⟩

/-! ## Putting twins together -/

theorem Twins.same (text : List Char) : Twins text text :=
  ⟨text.map .char, fun p => fits_chars p text, spell_chars _ text, spell_chars _ text⟩

theorem Twins.append {l r l' r' : List Char} (h : Twins l r) (h' : Twins l' r') :
    Twins (l ++ l') (r ++ r') := by
  obtain ⟨ts, fits, rfl, rfl⟩ := h
  obtain ⟨ts', fits', rfl, rfl⟩ := h'
  exact ⟨ts ++ ts', fun p => fits_append (fits p) fits', spell_append _ ts ts', spell_append _ ts ts'⟩

theorem TwinsApart.append {l r l' r' : List Char} (h : TwinsApart l r) (h' : Twins l' r') :
    TwinsApart (l ++ l') (r ++ r') := by
  obtain ⟨ts, fits, rfl, rfl⟩ := h
  obtain ⟨ts', fits', rfl, rfl⟩ := h'
  exact ⟨ts ++ ts', fits_append fits fits', spell_append _ ts ts', spell_append _ ts ts'⟩

/-- A character that is not part of a word keeps what follows apart from what is in front. -/
theorem TwinsApart.cons {c : Char} {l r : List Char} (h : TwinsApart l r) (boundary : isWord c = false) :
    Twins (c :: l) (c :: r) := by
  obtain ⟨ts, fits, rfl, rfl⟩ := h
  exact ⟨.char c :: ts, fun p => ⟨trivial, fits.behind (by simpa [Token.last] using boundary)⟩, rfl, rfl⟩

theorem twins_slot : Twins slotText renderedChildren :=
  ⟨[.slot], fun _ => ⟨trivial, trivial⟩, rfl, rfl⟩

theorem twins_rest : Twins "\x7b...$$restProps\x7d".toList "\x7b...restProps\x7d".toList :=
  ⟨[.rest], fun _ => ⟨trivial, trivial⟩, rfl, rfl⟩

theorem twinsApart_event {name : List Char} (nonempty : name ≠ [])
    (all : ∀ c ∈ name, isWord c = true) :
    TwinsApart ("on:".toList ++ name ++ ['=']) ("on".toList ++ name ++ ['=']) := by
  refine ⟨[.event name], ⟨⟨rfl, nonempty, all⟩, trivial⟩, ?_, ?_⟩
  · simp [spell, Token.text, Style.older]
  · simp [spell, Token.text, Style.runes]

/-! ## Dropping blanks -/

def Token.isBlank : Token → Bool
  | .char c => Text.isBlank c
  | _ => false

theorem dropWhile_spell (s : Style) (ts : List Token) :
    (spell s ts).dropWhile isBlank = spell s (ts.dropWhile Token.isBlank) := by
  induction ts with
  | nil => rfl
  | cons t ts ih =>
    cases t with
    | char c =>
      cases blank : isBlank c with
      | true => simp [spell, Token.text, Token.isBlank, blank, ih]
      | false => simp [spell, Token.text, Token.isBlank, blank]
    | slot =>
      obtain ⟨tail, shape | shape⟩ := slot_text_head s
      · simp [spell, shape, Token.isBlank, show isBlank '<' = false by decide]
      · simp [spell, shape, Token.isBlank, show isBlank '\x7b' = false by decide]
    | event name => simp [spell, Token.text, Token.isBlank, show isBlank 'o' = false by decide]
    | rest => simp [spell, Token.text, Token.isBlank, show isBlank '\x7b' = false by decide]

theorem fits_dropWhile {p : Option Char} {ts : List Token} (h : Fits p ts) :
    Fits none (ts.dropWhile Token.isBlank) := by
  induction ts generalizing p with
  | nil => trivial
  | cons t ts ih =>
    cases blank : t.isBlank with
    | true =>
      rw [List.dropWhile_cons_of_pos blank]
      exact ih h.2
    | false =>
      rw [List.dropWhile_cons_of_neg (by simp [blank])]
      exact h.behind rfl

/-- The last character of a token that is no blank is no blank. -/
theorem text_eq_concat (s : Style) {t : Token} (h : t.isBlank = false) :
    ∃ front c, t.text s = front ++ [c] ∧ isBlank c = false := by
  cases t with
  | char c => exact ⟨[], c, rfl, h⟩
  | slot =>
    cases new : s.slot with
    | true =>
      exact ⟨"\x7b@render children?.()".toList, '\x7d', by simp only [Token.text, new]; rfl, by decide⟩
    | false => exact ⟨"<slot /".toList, '>', by simp only [Token.text, new]; rfl, by decide⟩
  | event name =>
    exact ⟨'o' :: 'n' :: ((if s.event then [] else [':']) ++ name), '=', by simp [Token.text],
      by decide⟩
  | rest =>
    exact ⟨['\x7b', '.', '.', '.'] ++ ((if s.rest then [] else ['$', '$']) ++ "restProps".toList),
      '\x7d', by simp [Token.text], by decide⟩

theorem dropEndWhile_spell (s : Style) (ts : List Token) :
    dropEndWhile isBlank (spell s ts) = spell s (ts.rdropWhile Token.isBlank) := by
  induction ts using List.reverseRecOn with
  | nil => rfl
  | append_singleton ts t ih =>
    have one : spell s [t] = t.text s := by simp [spell]
    rw [spell_append, one]
    cases blank : t.isBlank with
    | true =>
      rw [List.rdropWhile_concat_pos _ _ _ blank]
      cases t with
      | char c => exact (dropEndWhile_append_singleton_of_pos blank _).trans ih
      | _ => simp [Token.isBlank] at blank
    | false =>
      obtain ⟨front, c, shape, last⟩ := text_eq_concat s blank
      rw [List.rdropWhile_concat_neg _ _ _ (by simp [blank]), spell_append, one, shape,
        ← List.append_assoc, dropEndWhile_append_singleton_of_neg last]

theorem TwinsApart.dropEnd {l r : List Char} (h : TwinsApart l r) :
    TwinsApart (dropEndWhile isBlank l) (dropEndWhile isBlank r) := by
  obtain ⟨ts, fits, rfl, rfl⟩ := h
  refine ⟨ts.rdropWhile Token.isBlank, ?_, (dropEndWhile_spell _ ts).symm,
    (dropEndWhile_spell _ ts).symm⟩
  obtain ⟨back, split⟩ := List.rdropWhile_prefix Token.isBlank ts
  rw [← split] at fits
  exact fits_left fits

theorem TwinsApart.strip {l r : List Char} (h : TwinsApart l r) :
    TwinsApart (stripChars l) (stripChars r) := by
  obtain ⟨ts, fits, rfl, rfl⟩ := h
  have front : TwinsApart ((spell .older ts).dropWhile isBlank) ((spell .runes ts).dropWhile isBlank) :=
    ⟨ts.dropWhile Token.isBlank, fits_dropWhile fits, (dropWhile_spell _ ts).symm,
      (dropWhile_spell _ ts).symm⟩
  exact front.dropEnd

end Recast.Runes
