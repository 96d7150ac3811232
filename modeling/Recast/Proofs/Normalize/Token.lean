import Recast.Proofs.Normalize.Catalog
import Recast.Proofs.Repair.Tags

/-!
# Markup with wrapped primitives

A wrapped primitive gets its native tag early, when the source is read, or late, when generated
markup is repaired. Both ways write the same markup up to the tags of primitives, so a text is
described by tokens, which are characters and tags of primitives, and is spelled from them in one of
three ways: with dynamic tags, with native tags, and in between, as the substitution of native tags
leaves it.

`Reads` says that the tags in a sequence of tokens are nested, and that nothing in an opening tag can
be mistaken for its end.
-/

set_option autoImplicit false

namespace Recast.Normalize

open Recast.Text Recast.Repair

/-! ## Tokens -/

/-- A character, or a part of a tag of a primitive: the start of an opening tag up to its attributes,
the closing tag, and the end of the opening tag of a void primitive together with its closing tag. -/
inductive Token where
  | char (c : Char)
  | opens (p : Primitive)
  | closes (p : Primitive)
  | finishes (p : Primitive)

/-- How the tags of primitives are spelled. -/
inductive Stage where
  | dynamic
  | substituted
  | native

def Token.text (target : Target) : Stage → Token → List Char
  | _, .char c => [c]
  | .dynamic, .opens p => '<' :: (dynamicTag target ++ nameText target p.name.toList)
  | _, .opens p => '<' :: p.tag.toList
  | .dynamic, .closes _ => closingMarker target
  | _, .closes p => '<' :: '/' :: (p.tag.toList ++ ['>'])
  | .dynamic, .finishes _ => '>' :: closingMarker target
  | .substituted, .finishes p => [' ', '/', '>', '<', '/'] ++ (p.tag.toList ++ ['>'])
  | .native, .finishes _ => [' ', '/', '>']

def spell (target : Target) (stage : Stage) (ts : List Token) : List Char :=
  ts.flatMap (Token.text target stage)

section Spell

variable (target : Target) (stage : Stage)

@[simp]
theorem spell_nil : spell target stage [] = [] := rfl

@[simp]
theorem spell_cons (t : Token) (ts : List Token) :
    spell target stage (t :: ts) = t.text target stage ++ spell target stage ts := rfl

@[simp]
theorem spell_append (front back : List Token) :
    spell target stage (front ++ back) = spell target stage front ++ spell target stage back :=
  List.flatMap_append

@[simp]
theorem spell_chars (text : List Char) : spell target stage (text.map .char) = text := by
  induction text with
  | nil => rfl
  | cons c text ih =>
    rw [List.map_cons, spell_cons, ih]
    rfl

theorem closingMarker_eq : closingMarker target = '<' :: '/' :: (dynamicTag target ++ ['>']) := by
  simp [closingMarker]

end Spell

/-! ## Nested tags -/

def isValueEnd (c : Char) : Bool := c == '"' || c == '\x7d'

/-- The attributes of a primitive as generators write them: nothing, or a blank and then text with
balanced quotes and braces that starts with no other blank and ends with the end of a value. -/
structure Attributes (text : List Char) : Prop where
  balanced : Balanced false text
  spaced : text = [] ∨ ∃ c rest, text = ' ' :: c :: rest ∧ isBlank c = false
  ending : text.getLast?.all isValueEnd = true

section Attributes

variable {text : List Char} (h : Attributes text)

include h

theorem Attributes.dropEndWhile_eq : dropEndWhile isBlank text = text := by
  rcases List.eq_nil_or_concat text with rfl | ⟨front, d, rfl⟩
  · rfl
  · rw [List.concat_eq_append]
    have last := h.ending
    simp only [List.concat_eq_append, List.getLast?_concat, Option.all_some, isValueEnd,
      Bool.or_eq_true, beq_iff_eq] at last
    refine dropEndWhile_append_singleton_of_neg ?_ front
    rcases last with rfl | rfl <;> decide

theorem Attributes.spaced_eq :
    (if stripChars text = [] then [] else ' ' :: stripChars text) = text := by
  have trimmed := h.dropEndWhile_eq
  rcases h.spaced with rfl | ⟨c, rest, rfl, first⟩
  · rfl
  · have inside : dropEndWhile isBlank (c :: rest) ≠ [] := by
      intro empty
      have lost := dropEndWhile_append_of_eq_nil empty [' ']
      rw [List.singleton_append, trimmed] at lost
      exact absurd lost (by simp [dropEndWhile, show isBlank ' ' = true by decide])
    have whole := dropEndWhile_append_of_ne_nil inside [' ']
    rw [List.singleton_append, trimmed, List.singleton_append, List.cons.injEq] at whole
    have strip : stripChars (' ' :: c :: rest) = c :: rest := by
      rw [stripChars, trimWhile, List.dropWhile_cons_of_pos (by decide),
        List.dropWhile_cons_of_neg (by simp [first]), ← whole.2]
    rw [strip, if_neg (by simp)]

theorem Attributes.getLast?_ne_slash : (stripChars text).getLast? ≠ some '/' := by
  rw [stripChars, getLast?_trimWhile, h.dropEndWhile_eq]
  intro last
  have ending := h.ending
  rw [last] at ending
  exact absurd ending (by decide)

end Attributes

/-- The tokens take the open primitives from the ones in front, innermost first, to those behind. -/
inductive Reads : List Primitive → List Token → List Primitive → Prop
  | nil (s : List Primitive) : Reads s [] s
  | char {s s' : List Primitive} (c : Char) {ts : List Token} :
      Reads s ts s' → Reads s (.char c :: ts) s'
  | opened {s s' : List Primitive} {p : Primitive} {text : List Char} {ts : List Token} :
      p.isVoid = false → Attributes text → Reads (p :: s) ts s' →
      Reads s (.opens p :: (text.map .char ++ .char '>' :: ts)) s'
  | closed {s s' : List Primitive} {p : Primitive} {ts : List Token} :
      p.isVoid = false → Reads s ts s' → Reads (p :: s) (.closes p :: ts) s'
  | void {s s' : List Primitive} {p : Primitive} {text : List Char} {ts : List Token} :
      p.isVoid = true → Attributes text → Reads s ts s' →
      Reads s (.opens p :: (text.map .char ++ .finishes p :: ts)) s'

theorem Reads.append {s s' s'' : List Primitive} {ts us : List Token} (h : Reads s ts s')
    (h' : Reads s' us s'') : Reads s (ts ++ us) s'' := by
  induction h with
  | nil => exact h'
  | char c _ ih => exact .char c (ih h')
  | opened plain attributes _ ih =>
    rw [List.cons_append, List.append_assoc, List.cons_append]
    exact .opened plain attributes (ih h')
  | closed plain _ ih => exact .closed plain (ih h')
  | void isVoid attributes _ ih =>
    rw [List.cons_append, List.append_assoc, List.cons_append]
    exact .void isVoid attributes (ih h')

theorem Reads.chars (s : List Primitive) (text : List Char) : Reads s (text.map .char) s := by
  induction text with
  | nil => exact .nil s
  | cons c text ih => exact .char c ih

/-- A list that ends with a character ends with the rest behind any other token. -/
theorem concat_eq_append_cons {ts front us : List Token} {c : Char} {t : Token} (other : t ≠ .char c)
    (whole : ts ++ [Token.char c] = front ++ t :: us) :
    ∃ more, us = more ++ [Token.char c] ∧ ts = front ++ t :: more := by
  rcases List.eq_nil_or_concat us with rfl | ⟨more, last, rfl⟩
  · have ends := congrArg List.getLast? whole
    simp only [List.getLast?_concat, Option.some.injEq] at ends
    exact absurd ends.symm other
  · rw [List.concat_eq_append, ← List.cons_append, ← List.append_assoc] at whole
    obtain ⟨same, last'⟩ := List.append_inj' whole rfl
    obtain rfl : Token.char c = last := by simpa using last'
    exact ⟨more, List.concat_eq_append, same⟩

/-- A blank at the end is not part of a tag. -/
theorem Reads.of_concat_blank {s s' : List Primitive} {c : Char} (blank : isBlank c = true)
    {ts : List Token} (h : Reads s (ts ++ [Token.char c]) s') : Reads s ts s' := by
  have notBracket : Token.char '>' ≠ .char c := by
    rintro ⟨⟩
    exact absurd blank (by decide)
  generalize whole : ts ++ [Token.char c] = us at h
  induction h generalizing ts with
  | nil => simp at whole
  | char d tail ih =>
    cases ts with
    | nil =>
      obtain ⟨_, rfl⟩ : c = d ∧ [] = _ := by simpa using whole
      exact tail
    | cons t ts =>
      rw [List.cons_append, List.cons.injEq] at whole
      rw [whole.1]
      exact .char d (ih whole.2)
  | opened plain attributes tail ih =>
    rw [← List.cons_append] at whole
    obtain ⟨more, rfl, rfl⟩ := concat_eq_append_cons notBracket whole
    exact .opened plain attributes (ih rfl)
  | closed plain tail ih =>
    obtain ⟨more, rfl, rfl⟩ :=
      @concat_eq_append_cons ts [] _ c (.closes _) (by simp) whole
    exact .closed plain (ih rfl)
  | void isVoid attributes tail ih =>
    rw [← List.cons_append] at whole
    obtain ⟨more, rfl, rfl⟩ := concat_eq_append_cons (by simp) whole
    exact .void isVoid attributes (ih rfl)

/-! ## Trimming -/

def Token.isBlank : Token → Bool
  | .char c => Text.isBlank c
  | _ => false

theorem nameText_eq_concat (target : Target) (name : List Char) :
    ∃ front c, nameText target name = front ++ [c] ∧ isBlank c = false := by
  cases target with
  | svelte => exact ⟨_, '\x7d', nameText_svelte name, by decide⟩
  | vue => exact ⟨_, '"', nameText_vue name, by decide⟩

/-- The last character of a token that is no blank is no blank. -/
theorem text_eq_concat (target : Target) (stage : Stage) {t : Token} (h : t.isBlank = false) :
    ∃ front c, t.text target stage = front ++ [c] ∧ isBlank c = false := by
  have tagEnd : ∀ p : Primitive, ∃ front c, '<' :: p.tag.toList = front ++ [c] ∧ isBlank c = false := by
    intro p
    rcases List.eq_nil_or_concat p.tag.toList with empty | ⟨front, c, split⟩
    · exact absurd empty p.tag_ne_nil
    · rw [List.concat_eq_append] at split
      have letter : isTagLetter c = true := p.tag_letters c (by simp [split])
      exact ⟨'<' :: front, c, by rw [split, List.cons_append], isBlank_eq_false_of_isTagLetter letter⟩
  cases t with
  | char c => exact ⟨[], c, rfl, h⟩
  | opens p =>
    cases stage with
    | dynamic =>
      obtain ⟨front, c, split, last⟩ := nameText_eq_concat target p.name.toList
      refine ⟨'<' :: (dynamicTag target ++ front), c, ?_, last⟩
      rw [Token.text, split, List.cons_append, List.append_assoc]
    | substituted => exact tagEnd p
    | native => exact tagEnd p
  | closes p =>
    cases stage with
    | dynamic => exact ⟨"</".toList ++ dynamicTag target, '>', rfl, by decide⟩
    | substituted => exact ⟨'<' :: '/' :: p.tag.toList, '>', rfl, by decide⟩
    | native => exact ⟨'<' :: '/' :: p.tag.toList, '>', rfl, by decide⟩
  | finishes p =>
    cases stage with
    | dynamic => exact ⟨'>' :: ("</".toList ++ dynamicTag target), '>', rfl, by decide⟩
    | substituted =>
      exact ⟨[' ', '/', '>', '<', '/'] ++ p.tag.toList, '>', by simp [Token.text], by decide⟩
    | native => exact ⟨[' ', '/'], '>', rfl, by decide⟩

theorem dropEndWhile_spell (target : Target) (stage : Stage) (ts : List Token) :
    dropEndWhile isBlank (spell target stage ts) = spell target stage (ts.rdropWhile Token.isBlank) := by
  induction ts using List.reverseRecOn with
  | nil => rfl
  | append_singleton ts t ih =>
    have one : spell target stage [t] = t.text target stage := by simp
    rw [spell_append, one]
    cases blank : t.isBlank with
    | true =>
      rw [List.rdropWhile_concat_pos _ _ _ blank]
      cases t with
      | char c => exact (dropEndWhile_append_singleton_of_pos blank _).trans ih
      | _ => simp [Token.isBlank] at blank
    | false =>
      obtain ⟨front, c, shape, last⟩ := text_eq_concat target stage blank
      rw [List.rdropWhile_concat_neg _ _ _ (by simp [blank]), spell_append, one, shape,
        ← List.append_assoc, dropEndWhile_append_singleton_of_neg last]

theorem Reads.rdropWhile {s s' : List Primitive} {ts : List Token} (h : Reads s ts s') :
    Reads s (ts.rdropWhile Token.isBlank) s' := by
  induction ts using List.reverseRecOn with
  | nil => exact h
  | append_singleton ts t ih =>
    cases blank : t.isBlank with
    | true =>
      rw [List.rdropWhile_concat_pos _ _ _ blank]
      cases t with
      | char c => exact ih (h.of_concat_blank blank)
      | _ => simp [Token.isBlank] at blank
    | false => rwa [List.rdropWhile_concat_neg _ _ _ (by simp [blank])]

/-- A tag that is read from its start starts with a bracket. -/
theorem dropWhile_spell {s s' : List Primitive} {ts : List Token} (h : Reads s ts s')
    (target : Target) (stage : Stage) :
    (spell target stage ts).dropWhile isBlank = spell target stage (ts.dropWhile Token.isBlank) := by
  have bracket : isBlank '<' = false := by decide
  induction h with
  | nil => rfl
  | char c _ ih =>
    cases blank : isBlank c with
    | true => simp [Token.text, Token.isBlank, blank, ih]
    | false => simp [Token.text, Token.isBlank, blank]
  | opened => cases stage <;> simp [Token.text, Token.isBlank, bracket]
  | closed => cases stage <;> simp [Token.text, Token.isBlank, bracket, closingMarker_eq]
  | void => cases stage <;> simp [Token.text, Token.isBlank, bracket]

theorem Reads.dropWhile {s s' : List Primitive} {ts : List Token} (h : Reads s ts s') :
    Reads s (ts.dropWhile Token.isBlank) s' := by
  induction h with
  | nil s => exact .nil s
  | @char s s' c ts tail ih =>
    cases blank : isBlank c with
    | true => rwa [List.dropWhile_cons_of_pos (by simpa [Token.isBlank] using blank)]
    | false =>
      rw [List.dropWhile_cons_of_neg (by simp [Token.isBlank, blank])]
      exact .char c tail
  | opened plain attributes tail _ => exact .opened plain attributes tail
  | closed plain tail _ => exact .closed plain tail
  | void isVoid attributes tail _ => exact .void isVoid attributes tail

/-- Dropping blanks at both ends of a text drops the same blanks in every spelling. -/
theorem stripChars_spell {s s' : List Primitive} {ts : List Token} (h : Reads s ts s') :
    ∃ us, Reads s us s' ∧
      ∀ target stage, stripChars (spell target stage ts) = spell target stage us := by
  refine ⟨(ts.dropWhile Token.isBlank).rdropWhile Token.isBlank, h.dropWhile.rdropWhile, ?_⟩
  intro target stage
  rw [stripChars, trimWhile, dropWhile_spell h, dropEndWhile_spell]

end Recast.Normalize
