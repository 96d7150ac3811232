import Recast.Proofs.Text.Character
import Recast.Proofs.Text.Substitution
import Recast.Repair.Tags

/-!
# Dynamic tags one at a time

What the substitution of native tags does at one place of a text: it passes characters that start no
dynamic tag, it takes opening tags apart, and it lets a closing tag close the innermost open one.

`Balanced` describes the attribute text that cannot be mistaken for the end of a tag. Reading a tag
with such attributes stops at its own bracket.
-/

set_option autoImplicit false

namespace Recast.Repair

open Recast.Text

/-! ## Attribute text -/

/-- Text in which quotes and braces are balanced. Outside of braces, a bracket that ends a tag stands
only in quotes. -/
inductive Balanced : (inBraces : Bool) → List Char → Prop
  | nil (b : Bool) : Balanced b []
  | char {b : Bool} {c : Char} {rest : List Char} :
      c ≠ '"' → c ≠ '\'' → c ≠ '\x7b' → c ≠ '\x7d' → (b = false → c ≠ '>') →
      Balanced b rest → Balanced b (c :: rest)
  | quoted {b : Bool} {q : Char} {text rest : List Char} :
      q = '"' ∨ q = '\'' → q ∉ text → Balanced b rest → Balanced b (q :: (text ++ q :: rest))
  | braced {b : Bool} {inside rest : List Char} :
      Balanced true inside → Balanced b rest → Balanced b ('\x7b' :: (inside ++ '\x7d' :: rest))

theorem Balanced.append {b : Bool} {front back : List Char} (hf : Balanced b front)
    (hb : Balanced b back) : Balanced b (front ++ back) := by
  induction hf with
  | nil => simpa using hb
  | char h1 h2 h3 h4 h5 _ ih => exact .char h1 h2 h3 h4 h5 (ih hb)
  | quoted hq ht _ ih =>
    rw [List.cons_append, List.append_assoc, List.cons_append]
    exact .quoted hq ht (ih hb)
  | braced hi _ _ ih =>
    rw [List.cons_append, List.append_assoc, List.cons_append]
    exact .braced hi (ih hb)

/-- Characters without meaning for the reader of a tag. -/
def isPlainChar (c : Char) : Bool :=
  c != '"' && c != '\'' && c != '\x7b' && c != '\x7d' && c != '>'

theorem Balanced.of_plain {text : List Char} (b : Bool) (h : ∀ c ∈ text, isPlainChar c = true) :
    Balanced b text := by
  induction text with
  | nil => exact .nil b
  | cons c text ih =>
    have hc := h c (by simp)
    simp only [isPlainChar, Bool.and_eq_true, bne_iff_ne] at hc
    obtain ⟨⟨⟨⟨h1, h2⟩, h3⟩, h4⟩, h5⟩ := hc
    exact .char h1 h2 h3 h4 (fun _ => h5) (ih fun d hd => h d (by simp [hd]))

theorem upToTagEnd?_quote {q : Char} {text : List Char} (depth : Nat) (h : q ∉ text)
    (rest : List Char) :
    upToTagEnd? depth (some q) (text ++ q :: rest) =
      (upToTagEnd? depth none rest).map fun r => (text ++ q :: r.1, r.2) := by
  induction text with
  | nil => simp [upToTagEnd?]
  | cons c text ih =>
    have hc : ¬ c = q := fun e => h (by simp [e])
    have ht : q ∉ text := fun e => h (by simp [e])
    simp only [List.cons_append, upToTagEnd?, if_neg hc, ih ht, Option.map_map]
    rfl

/-- Balanced text is passed over as a whole: the reader comes out of it in the state in which it went
in. -/
theorem upToTagEnd?_balanced {b : Bool} {text : List Char} (h : Balanced b text) :
    ∀ (depth : Nat) (rest : List Char), (b = true → 0 < depth) →
      upToTagEnd? depth none (text ++ rest) =
        (upToTagEnd? depth none rest).map fun r => (text ++ r.1, r.2) := by
  induction h with
  | nil => intro depth rest _; simp
  | @char b c text h1 h2 h3 h4 h5 _ ih =>
    intro depth rest inside
    have open' : ¬ (c = '>' ∧ depth = 0) := by
      rintro ⟨bracket, zero⟩
      cases b with
      | false => exact h5 rfl bracket
      | true => exact absurd (inside rfl) (by omega)
    simp only [List.cons_append, upToTagEnd?, h1, h2, h3, h4, open', or_self, if_false,
      ih depth rest inside, Option.map_map]
    rfl
  | @quoted b q text tail hq ht _ ih =>
    intro depth rest inside
    rw [List.cons_append, List.append_assoc, List.cons_append, upToTagEnd?]
    simp only [hq, if_true, upToTagEnd?_quote depth ht, ih depth rest inside, Option.map_map]
    congr 1
    funext r
    simp
  | @braced b inner tail _ _ ihInner ihTail =>
    intro depth rest inside
    rw [List.cons_append, List.append_assoc, List.cons_append, upToTagEnd?]
    simp only [ihInner (depth + 1) ('\x7d' :: (tail ++ rest)) (fun _ => by omega), upToTagEnd?,
      Option.map_map, Nat.add_sub_cancel, ihTail depth rest inside]
    simp only [show ('\x7b' = '"' ∨ '\x7b' = '\'') = False by decide, if_false, if_true,
      show ('\x7d' = '"' ∨ '\x7d' = '\'') = False by decide, show ('\x7d' = '\x7b') = False by decide,
      Option.map_map]
    congr 1
    funext r
    simp

theorem upToTagEnd?_of_balanced {text : List Char} (h : Balanced false text) (rest : List Char) :
    upToTagEnd? 0 none (text ++ '>' :: rest) = some (text, rest) := by
  rw [upToTagEnd?_balanced h 0 _ (by simp)]
  simp [upToTagEnd?]

/-! ## Marks -/

theorem dynamicTag_svelte : dynamicTag .svelte =
    ['s', 'v', 'e', 'l', 't', 'e', ':', 'c', 'o', 'm', 'p', 'o', 'n', 'e', 'n', 't'] := rfl

theorem dynamicTag_vue : dynamicTag .vue = ['c', 'o', 'm', 'p', 'o', 'n', 'e', 'n', 't'] := rfl

theorem markRule_previous (target : Target) (p q : Option Char) (cs : List Char) :
    markRule target p cs = markRule target q cs := rfl

/-- Only a bracket can start a dynamic tag. -/
theorem markRule_eq_none_of_ne {target : Target} {c : Char} (h : c ≠ '<') (p : Option Char)
    (cs : List Char) : markRule target p (c :: cs) = none := by
  have h' : ¬ '<' = c := fun e => h e.symm
  simp [markRule, after?, h']

/-- The tag that closes a dynamic component. -/
def closingMarker (target : Target) : List Char := "</".toList ++ dynamicTag target ++ ['>']

theorem markRule_closing (target : Target) (p : Option Char) (rest : List Char) :
    markRule target p (closingMarker target ++ rest) = some (.closing, rest) := by
  have found : after? ("</".toList ++ dynamicTag target) (closingMarker target ++ rest) =
      some ('>' :: rest) := by
    rw [after?_eq_some_iff]
    simp [closingMarker]
  have bracket : afterWord? ">" ('>' :: rest) = some rest := rfl
  simp only [markRule, found, Option.bind_some, bracket]

theorem markRule_opening (target : Target) (p : Option Char) {content : List Char}
    (start : content.head? = some ' ') (balanced : Balanced false content) (rest : List Char) :
    markRule target p ('<' :: dynamicTag target ++ content ++ '>' :: rest) =
      some (.opening content, rest) := by
  have open' : after? ("</".toList ++ dynamicTag target)
      ('<' :: dynamicTag target ++ content ++ '>' :: rest) = none := by
    cases target with
    | svelte => simp [dynamicTag_svelte, after?]
    | vue => simp [dynamicTag_vue, after?]
  have found : after? ('<' :: dynamicTag target)
      ('<' :: dynamicTag target ++ content ++ '>' :: rest) = some (content ++ '>' :: rest) := by
    rw [after?_eq_some_iff, List.append_assoc]
  obtain ⟨more, rfl⟩ : ∃ more, content = ' ' :: more := by
    cases content with
    | nil => simp at start
    | cons c more => exact ⟨more, by simpa using start⟩
  have ends : (' ' :: more ++ '>' :: rest).head?.all endsTagName = true := by
    simp [endsTagName]
  have read := upToTagEnd?_of_balanced balanced rest
  simp only [markRule, open', found, Option.bind_none, Option.filter_some, ends, if_true, read]

/-! ## Taking an opening tag apart -/

/-- The attribute that names the component of a dynamic tag, as generators write it. -/
def nameText (target : Target) (name : List Char) : List Char :=
  match target with
  | .svelte => " this=\x7b".toList ++ name ++ ['\x7d']
  | .vue => " :is=\"".toList ++ name ++ ['"']

theorem nameText_svelte (name : List Char) : nameText .svelte name =
    [' ', 't', 'h', 'i', 's', '=', '\x7b'] ++ name ++ ['\x7d'] := rfl

theorem nameText_vue (name : List Char) : nameText .vue name =
    [' ', ':', 'i', 's', '=', '"'] ++ name ++ ['"'] := rfl

theorem nameText_balanced (target : Target) {name : List Char} (chars : ∀ c ∈ name, isNameChar c = true) :
    Balanced false (nameText target name) := by
  have plain : ∀ c ∈ name, isPlainChar c = true := by
    intro c hc
    have nameChar := chars c hc
    simp only [isPlainChar, Bool.and_eq_true, bne_iff_ne]
    refine ⟨⟨⟨⟨?_, ?_⟩, ?_⟩, ?_⟩, ?_⟩ <;> rintro rfl <;> exact absurd nameChar (by decide)
  cases target with
  | svelte =>
    have front : Balanced false [' ', 't', 'h', 'i', 's', '='] := .of_plain false (List.all_eq_true.mp rfl)
    have name := Balanced.braced (b := false) (.of_plain true plain) (.nil false)
    simpa [nameText_svelte] using front.append name
  | vue =>
    have front : Balanced false [' ', ':', 'i', 's', '='] := .of_plain false (List.all_eq_true.mp rfl)
    have unquoted : '"' ∉ name := fun quote => absurd (plain _ quote) (by decide)
    have name := Balanced.quoted (b := false) (.inl rfl) unquoted (.nil false)
    simpa [nameText_vue] using front.append name

theorem nameRun?_append {name rest : List Char} {c : Char} (nonempty : name ≠ [])
    (chars : ∀ d ∈ name, isNameChar d = true) (h : isNameChar c = false) :
    nameRun? (name ++ c :: rest) = some (name, c :: rest) := by
  have run : (name ++ c :: rest).takeWhile isNameChar = name := by
    rw [List.takeWhile_append_of_pos chars, List.takeWhile_cons_of_neg (by simp [h]), List.append_nil]
  have tail : (name ++ c :: rest).dropWhile isNameChar = c :: rest := by
    rw [List.dropWhile_append_of_pos chars, List.dropWhile_cons_of_neg (by simp [h])]
  simp only [nameRun?, run, tail, if_neg nonempty]

theorem isBlank_eq_false_of_isNameChar {c : Char} (h : isNameChar c = true) : isBlank c = false := by
  simp only [isNameChar, Bool.or_eq_true, beq_iff_eq] at h
  rcases h with (word | rfl) | rfl
  · exact isBlank_eq_false_of_isWord word
  · decide
  · decide

theorem nameAttribute_nameText (target : Target) {name : List Char} (nonempty : name ≠ [])
    (chars : ∀ d ∈ name, isNameChar d = true) (rest : List Char) :
    nameAttribute target none (nameText target name ++ rest) = some (name, rest) := by
  obtain ⟨d, more, rfl⟩ := List.exists_cons_of_ne_nil nonempty
  have first : isBlank d = false := isBlank_eq_false_of_isNameChar (chars d (by simp))
  cases target with
  | svelte =>
    have front : afterWord? "this=\x7b" (nameText .svelte (d :: more) ++ rest) =
        some (d :: more ++ '\x7d' :: rest) := by
      simp [nameText_svelte, afterWord?, after?, show isBlank ' ' = true by decide,
        show isBlank 't' = false by decide]
    have head : (nameText .svelte (d :: more) ++ rest).head?.any isBlank = true := rfl
    have blanks : (d :: more ++ '\x7d' :: rest).dropWhile isBlank = d :: more ++ '\x7d' :: rest := by
      simp [first]
    have run : nameRun? (d :: more ++ '\x7d' :: rest) = some (d :: more, '\x7d' :: rest) :=
      nameRun?_append nonempty chars (by decide)
    have closed : afterWord? "\x7d" ('\x7d' :: rest) = some rest := rfl
    simp only [nameAttribute, front, head, Bool.true_or, guard_true, Option.bind_eq_bind,
      Option.bind_some, Option.pure_def, blanks, run, closed]
  | vue =>
    have blanks : (nameText .vue (d :: more) ++ rest).dropWhile isBlank =
        ":is=\"".toList ++ (d :: more ++ '"' :: rest) := by
      simp [nameText_vue, show isBlank ' ' = true by decide, show isBlank ':' = false by decide]
    have bare : after? "v-bind".toList (":is=\"".toList ++ (d :: more ++ '"' :: rest)) = none := rfl
    have run : nameRun? (d :: more ++ '"' :: rest) = some (d :: more, '"' :: rest) :=
      nameRun?_append nonempty chars (by decide)
    have closed : after? ['"'] ('"' :: rest) = some rest := rfl
    simp only [nameAttribute, blanks, bare, Option.getD_none, after?_append, Option.bind_eq_bind,
      Option.bind_some, Option.pure_def, run, closed]

theorem cutHit?_nameText (target : Target) {name : List Char} (nonempty : name ≠ [])
    (chars : ∀ d ∈ name, isNameChar d = true) (rest : List Char) :
    cutHit? (nameAttribute target) (nameText target name ++ rest) = some ([], name, rest) := by
  have found := nameAttribute_nameText target nonempty chars rest
  obtain ⟨c, more, shape⟩ : ∃ c more, nameText target name ++ rest = c :: more := by
    cases target with
    | svelte => exact ⟨_, _, by rw [nameText_svelte]; rfl⟩
    | vue => exact ⟨_, _, by rw [nameText_vue]; rfl⟩
  rw [shape] at found ⊢
  simp [cutHit?, cutHitFrom?, found]

theorem dropEndWhile_nameText (target : Target) (name : List Char) :
    dropEndWhile isBlank (nameText target name) = nameText target name := by
  cases target with
  | svelte =>
    rw [nameText_svelte]
    exact dropEndWhile_append_singleton_of_neg (by decide) _
  | vue =>
    rw [nameText_vue]
    exact dropEndWhile_append_singleton_of_neg (by decide) _

theorem getLast?_nameText_ne (target : Target) (name : List Char) :
    (nameText target name).getLast? ≠ some '/' := by
  cases target with
  | svelte =>
    rw [nameText_svelte, List.getLast?_concat]
    decide
  | vue =>
    rw [nameText_vue, List.getLast?_concat]
    decide

section Opening

variable (target : Target) (table : Assoc String) {name attributes : List Char}
  (nonempty : name ≠ []) (chars : ∀ d ∈ name, isNameChar d = true)

include nonempty chars

theorem readOpening_open (open' : (stripChars attributes).getLast? ≠ some '/') :
    readOpening target table (nameText target name ++ attributes) =
      ⟨(table.get? (String.ofList name)).map String.toList, stripChars attributes, false⟩ := by
  have last : (dropEndWhile isBlank (nameText target name ++ attributes)).getLast? ≠ some '/' := by
    by_cases blank : dropEndWhile isBlank attributes = []
    · rw [dropEndWhile_append_of_eq_nil blank, dropEndWhile_nameText]
      exact getLast?_nameText_ne target name
    · rw [dropEndWhile_append_of_ne_nil blank, List.getLast?_append_of_ne_nil _ blank,
        ← getLast?_trimWhile]
      exact open'
  have closes : ((dropEndWhile isBlank (nameText target name ++ attributes)).getLast? ==
      some '/') = false := by simpa using last
  simp only [readOpening, closes, Bool.false_eq_true, if_false,
    cutHit?_nameText target nonempty chars, List.nil_append]

theorem readOpening_closed (attributes : List Char) :
    readOpening target table (nameText target name ++ attributes ++ [' ', '/']) =
      ⟨(table.get? (String.ofList name)).map String.toList, stripChars attributes, true⟩ := by
  have content : nameText target name ++ attributes ++ [' ', '/'] =
      (nameText target name ++ (attributes ++ [' '])) ++ ['/'] := by simp
  have trimmed : dropEndWhile isBlank ((nameText target name ++ (attributes ++ [' '])) ++ ['/']) =
      (nameText target name ++ (attributes ++ [' '])) ++ ['/'] :=
    dropEndWhile_append_singleton_of_neg (by decide) _
  have blank : stripChars (attributes ++ [' ']) = stripChars attributes :=
    trimWhile_append_singleton (by decide) attributes
  rw [content]
  simp only [readOpening, trimmed, List.getLast?_concat, beq_self_eq_true, if_true,
    List.dropLast_concat, cutHit?_nameText target nonempty chars, List.nil_append, blank]

end Opening

/-! ## The substitution at one place -/

/-- The substitution from a place on, given the dynamic tags that are open there. -/
def substituteAt (target : Target) (table : Assoc String) (stack : List (Option (List Char)))
    (cs : List Char) : Repaired :=
  substituteFrom target table stack (segmentsFrom (markRule target) 0 none cs)

/-- The result for a text with more text, and more substituted tags, in front. -/
def Repaired.behind (r : Repaired) (text : List Char) (replaced : Nat) : Repaired :=
  { r with text := text ++ r.text, replaced := replaced + r.replaced }

theorem Repaired.behind_behind (r : Repaired) (text more : List Char) (n m : Nat) :
    (r.behind more m).behind text n = r.behind (text ++ more) (n + m) := by
  simp [Repaired.behind, Nat.add_assoc]

section Scan

variable (target : Target) (table : Assoc String) (stack : List (Option (List Char)))

theorem substituteTags_eq (text : List Char) :
    substituteTags text target table = substituteAt target table [] text := rfl

theorem substituteAt_nil : substituteAt target table stack [] = { text := [] } := by
  simp [substituteAt, segmentsFrom, substituteFrom]

theorem substituteFrom_pushPlain (c : Char) (pieces : List (Segment Mark)) :
    substituteFrom target table stack (pushPlain c pieces) =
      (substituteFrom target table stack pieces).behind [c] 0 := by
  unfold pushPlain
  split <;> simp [substituteFrom, Repaired.behind]

theorem substituteAt_char {c : Char} {cs : List Char} (h : markRule target none (c :: cs) = none) :
    substituteAt target table stack (c :: cs) = (substituteAt target table stack cs).behind [c] 0 := by
  rw [substituteAt, segmentsFrom_of_none h, substituteFrom_pushPlain,
    segmentsFrom_previous (markRule_previous target) 0 (some c) none, substituteAt]

theorem substituteAt_mark {text rest : List Char} {mark : Mark} (nonempty : text ≠ [])
    (h : markRule target none (text ++ rest) = some (mark, rest)) :
    substituteAt target table stack (text ++ rest) =
      substituteFrom target table stack
        (.hit text mark :: segmentsFrom (markRule target) 0 none rest) := by
  rw [substituteAt, segmentsFrom_of_some nonempty h,
    segmentsFrom_previous (markRule_previous target) 0 (lastOr none text) none]

/-- A closing tag closes the innermost dynamic tag that is open. -/
theorem substituteAt_closing (tag : Option (List Char)) (rest : List Char) :
    substituteAt target table (tag :: stack) (closingMarker target ++ rest) =
      (substituteAt target table stack rest).behind
        (closeTag (closingMarker target) (tag :: stack)).1 0 := by
  have nonempty : closingMarker target ≠ [] := by simp [closingMarker]
  rw [substituteAt_mark target table _ nonempty (markRule_closing target none rest)]
  cases tag <;> simp [substituteFrom, closeTag, Repaired.behind, substituteAt]

/-- An opening tag is taken apart and opens a dynamic tag, unless it closes itself. -/
theorem substituteAt_opening {content : List Char} (start : content.head? = some ' ')
    (balanced : Balanced false content) {o : Opening} (read : readOpening target table content = o)
    (rest : List Char) :
    substituteAt target table stack ('<' :: dynamicTag target ++ content ++ ['>'] ++ rest) =
      (substituteAt target table (if o.closesItself then stack else o.tag :: stack) rest).behind
        (match o.tag with
          | none => '<' :: dynamicTag target ++ content ++ ['>']
          | some tag => nativeOpening tag o.attributes o.closesItself)
        (if o.tag.isSome then 1 else 0) := by
  have mark := markRule_opening target none start balanced rest
  rw [List.append_cons] at mark
  rw [substituteAt_mark target table stack (by simp) mark, substituteFrom]
  simp only [read]
  cases o.tag <;> simp [Repaired.behind, substituteAt, Nat.add_comm]

/-! ## Text without dynamic tags -/

/-- Text in which no dynamic tag starts, whatever follows it. -/
def Inert (target : Target) : List Char → Prop
  | [] => True
  | c :: cs => (∀ rest, markRule target none (c :: cs ++ rest) = none) ∧ Inert target cs

theorem Inert.append {target : Target} {front back : List Char} (hf : Inert target front)
    (hb : Inert target back) : Inert target (front ++ back) := by
  induction front with
  | nil => exact hb
  | cons c front ih =>
    refine ⟨fun rest => ?_, ih hf.2⟩
    have here := hf.1 (back ++ rest)
    simpa using here

theorem inert_of_not_mem {text : List Char} (h : '<' ∉ text) : Inert target text := by
  induction text with
  | nil => trivial
  | cons c text ih =>
    have hc : c ≠ '<' := fun e => h (by simp [e])
    have ht : '<' ∉ text := fun e => h (by simp [e])
    exact ⟨fun rest => markRule_eq_none_of_ne hc none (text ++ rest), ih ht⟩

theorem substituteAt_inert {text : List Char} (h : Inert target text) (rest : List Char) :
    substituteAt target table stack (text ++ rest) =
      (substituteAt target table stack rest).behind text 0 := by
  induction text with
  | nil => simp [Repaired.behind]
  | cons c text ih =>
    have here : markRule target none (c :: (text ++ rest)) = none := h.1 rest
    rw [List.cons_append, substituteAt_char target table stack here, ih h.2, Repaired.behind_behind]
    rfl

end Scan

end Recast.Repair
