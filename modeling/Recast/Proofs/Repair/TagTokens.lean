import Recast.Proofs.Repair.Settled
import Recast.Proofs.Repair.Tags

/-!
# The substitution on any text

A text need not be well nested: closing tags may have nothing to close, opening tags may never end,
and a bracket may stand in a quoted value. Every text is read in one way as a list of tokens, and the
substitution rewrites it token by token. What it writes for a token depends on the tokens in front of
it only through the innermost dynamic tag that is still open there. That tag is described without a
stack, by the balanced text behind it, and the stack of the substitution is shown to hold it.
-/

set_option autoImplicit false

namespace Recast.Repair

open Recast.Text

/-! ## Where a tag ends -/

/-- The number of open braces and the open quote behind one more character of a tag. -/
def readChar : Nat × Option Char → Char → Nat × Option Char
  | (depth, some q), c => (depth, if c = q then none else some q)
  | (depth, none), c =>
    if c = '"' ∨ c = '\'' then (depth, some c)
    else if c = '\x7b' then (depth + 1, none)
    else if c = '\x7d' then (depth - 1, none)
    else (depth, none)

/-- Every closing bracket stands in quotes or braces, where `state` is open at the start. -/
def Endless (state : Nat × Option Char) (text : List Char) : Prop :=
  ∀ front back, text = front ++ '>' :: back → front.foldl readChar state ≠ (0, none)

/-- A bracket behind this text is the first one outside of quotes and braces. -/
structure EndsTag (state : Nat × Option Char) (content : List Char) : Prop where
  outside : content.foldl readChar state = (0, none)
  first : Endless state content

theorem endless_nil (state : Nat × Option Char) : Endless state [] := by
  intro front back split
  cases front <;> simp at split

theorem endless_cons_iff {state : Nat × Option Char} {c : Char} {text : List Char} :
    Endless state (c :: text) ↔ (c = '>' → state ≠ (0, none)) ∧ Endless (readChar state c) text := by
  constructor
  · intro endless
    exact ⟨fun bracket => endless [] text (by simp [bracket]),
      fun front back split => endless (c :: front) back (by rw [split, List.cons_append])⟩
  · rintro ⟨here, later⟩ front back split
    cases front with
    | nil =>
      rw [List.nil_append, List.cons.injEq] at split
      exact here split.1
    | cons d front =>
      rw [List.cons_append, List.cons.injEq] at split
      obtain ⟨rfl, split⟩ := split
      exact later front back split

/-- The reader of a tag stops at a bracket outside of quotes and braces and passes all else. -/
theorem upToTagEnd?_cons (depth : Nat) (quote : Option Char) (c : Char) (cs : List Char) :
    upToTagEnd? depth quote (c :: cs) =
      if c = '>' ∧ (depth, quote) = (0, none) then some ([], cs)
      else (upToTagEnd? (readChar (depth, quote) c).1 (readChar (depth, quote) c).2 cs).map
        fun r => (c :: r.1, r.2) := by
  cases quote with
  | some q => simp [upToTagEnd?, readChar]
  | none =>
    simp only [upToTagEnd?, readChar, Prod.mk.injEq, and_true]
    split_ifs <;> simp_all

theorem upToTagEnd?_eq_none {text : List Char} {depth : Nat} {quote : Option Char}
    (never : upToTagEnd? depth quote text = none) : Endless (depth, quote) text := by
  induction text generalizing depth quote with
  | nil => exact endless_nil _
  | cons c text ih =>
    rw [upToTagEnd?_cons] at never
    split at never
    · simp at never
    · rename_i inside
      rw [endless_cons_iff]
      exact ⟨fun bracket outside => inside ⟨bracket, outside⟩, ih (Option.map_eq_none_iff.mp never)⟩

theorem upToTagEnd?_eq_some {text content rest : List Char} {depth : Nat} {quote : Option Char}
    (ends : upToTagEnd? depth quote text = some (content, rest)) :
    text = content ++ '>' :: rest ∧ EndsTag (depth, quote) content := by
  induction text generalizing depth quote content with
  | nil => simp [upToTagEnd?] at ends
  | cons c text ih =>
    rw [upToTagEnd?_cons] at ends
    split at ends
    · rename_i here
      obtain ⟨rfl, outside⟩ := here
      simp only [Option.some.injEq, Prod.mk.injEq] at ends
      obtain ⟨rfl, rfl⟩ := ends
      exact ⟨rfl, outside, endless_nil _⟩
    · rename_i inside
      obtain ⟨⟨content, rest⟩, later, read⟩ := Option.map_eq_some_iff.mp ends
      simp only [Prod.mk.injEq] at read
      obtain ⟨rfl, rfl⟩ := read
      obtain ⟨rfl, outside, first⟩ := ih later
      have first' := endless_cons_iff.mpr ⟨fun bracket outside => inside ⟨bracket, outside⟩, first⟩
      exact ⟨rfl, outside, first'⟩

/-! ## Tokens -/

/-- What a text with dynamic tags is made of. -/
inductive TagToken where
  | char (c : Char)
  /-- An opening tag, by what stands between the tag's name and the bracket. -/
  | opening (content : List Char)
  /-- A closing tag, by the blanks between the tag's name and the bracket. -/
  | closing (blanks : List Char)
  /-- An opening tag that never ends, by all text behind the tag's name. -/
  | endless (content : List Char)
  deriving DecidableEq, Repr

def TagToken.text (target : Target) : TagToken → List Char
  | .char c => [c]
  | .opening content => '<' :: dynamicTag target ++ content ++ ['>']
  | .closing blanks => "</".toList ++ dynamicTag target ++ blanks ++ ['>']
  | .endless content => '<' :: dynamicTag target ++ content

def TagToken.isClosing : TagToken → Bool
  | .closing _ => true
  | _ => false

def StartsClosing (target : Target) (text : List Char) : Prop :=
  ∃ blanks rest, (∀ c ∈ blanks, isBlank c = true) ∧ text = (TagToken.closing blanks).text target ++ rest

def StartsOpening (target : Target) (text : List Char) : Prop :=
  ∃ rest, text = '<' :: dynamicTag target ++ rest ∧ rest.head?.all endsTagName = true

/-- The reading of a text from left to right. A character is a token of its own only where no dynamic
tag starts, an opening tag takes all text up to its own end, and one without an end takes the rest. -/
inductive Tokenized (target : Target) : List TagToken → Prop
  | nil : Tokenized target []
  | char {c : Char} {rest : List TagToken} :
      ¬ StartsClosing target (c :: rest.flatMap (TagToken.text target)) →
      ¬ StartsOpening target (c :: rest.flatMap (TagToken.text target)) →
      Tokenized target rest → Tokenized target (.char c :: rest)
  | closing {blanks : List Char} {rest : List TagToken} :
      (∀ c ∈ blanks, isBlank c = true) →
      Tokenized target rest → Tokenized target (.closing blanks :: rest)
  | opening {content : List Char} {rest : List TagToken} :
      content.head?.all endsTagName = true → EndsTag (0, none) content →
      Tokenized target rest → Tokenized target (.opening content :: rest)
  | endless {content : List Char} :
      content.head?.all endsTagName = true → Endless (0, none) content →
      Tokenized target [.endless content]

/-- What the rule for dynamic tags finds, as the token that starts there. -/
theorem markRule_cases (target : Target) (text : List Char) :
    (markRule target none text = none ∧ ¬ StartsClosing target text ∧ ¬ StartsOpening target text) ∨
    (∃ blanks rest, (∀ c ∈ blanks, isBlank c = true) ∧
      text = (TagToken.closing blanks).text target ++ rest ∧
      markRule target none text = some (.closing, rest)) ∨
    (∃ content rest, content.head?.all endsTagName = true ∧ EndsTag (0, none) content ∧
      text = (TagToken.opening content).text target ++ rest ∧
      markRule target none text = some (.opening content, rest)) ∨
    (∃ content, content.head?.all endsTagName = true ∧ Endless (0, none) content ∧
      text = (TagToken.endless content).text target ∧
      markRule target none text = some (.endless, [])) := by
  -- the closing tag is tried first; it and an opening tag never start at the same place
  cases close : (after? ("</".toList ++ dynamicTag target) text).bind (afterWord? ">") with
  | some rest =>
    obtain ⟨behind, name, bracket⟩ := Option.bind_eq_some_iff.mp close
    obtain ⟨blanks, blank, rfl⟩ := afterWord?_eq_some bracket
    rw [after?_eq_some_iff] at name
    refine .inr (.inl ⟨blanks, rest, blank, ?_, by simp only [markRule, close]⟩)
    simp [TagToken.text, name]
  | none =>
    have noClosing : ¬ StartsClosing target text := by
      rintro ⟨blanks, rest, blank, rfl⟩
      have name : after? ("</".toList ++ dynamicTag target) ((TagToken.closing blanks).text target ++ rest) =
          some (blanks ++ (">".toList ++ rest)) := by
        rw [after?_eq_some_iff]
        simp [TagToken.text]
      have bracket : afterWord? ">" (blanks ++ (">".toList ++ rest)) = some rest :=
        afterWord?_append blank (by decide) (by decide) rest
      rw [name, Option.bind_some, bracket] at close
      exact Option.some_ne_none _ close
    cases open' : (after? ('<' :: dynamicTag target) text).filter (·.head?.all endsTagName) with
    | none =>
      refine .inl ⟨by simp only [markRule, close, open'], noClosing, ?_⟩
      rintro ⟨rest, rfl, ends⟩
      rw [after?_append, Option.filter_some, if_pos ends] at open'
      exact Option.some_ne_none _ open'
    | some inside =>
      obtain ⟨name, ends⟩ := Option.filter_eq_some_iff.mp open'
      rw [after?_eq_some_iff] at name
      cases read : upToTagEnd? 0 none inside with
      | none =>
        refine .inr (.inr (.inr ⟨inside, ends, upToTagEnd?_eq_none read, name, ?_⟩))
        simp only [markRule, close, open', read]
      | some found =>
        obtain ⟨content, rest⟩ := found
        obtain ⟨rfl, ended⟩ := upToTagEnd?_eq_some read
        refine .inr (.inr (.inl ⟨content, rest, ?_, ended, ?_, ?_⟩))
        · cases content with
          | nil => rfl
          | cons c content => exact ends
        · simp [TagToken.text, name]
        · simp only [markRule, close, open', read]

/-! ## The innermost open tag -/

def ClosesItself (content : List Char) : Prop := (dropEndWhile isBlank content).getLast? = some '/'

instance (content : List Char) : Decidable (ClosesItself content) := inferInstanceAs (Decidable (_ = _))

/-- Tokens in which every tag that is opened is closed, and no other. -/
inductive Level : List TagToken → Prop
  | nil : Level []
  | char {c : Char} {rest : List TagToken} : Level rest → Level (.char c :: rest)
  | closed {content : List Char} {rest : List TagToken} :
      ClosesItself content → Level rest → Level (.opening content :: rest)
  | endless {content : List Char} {rest : List TagToken} : Level rest → Level (.endless content :: rest)
  | element {content blanks : List Char} {inside rest : List TagToken} :
      ¬ ClosesItself content → Level inside → Level rest →
      Level (.opening content :: inside ++ .closing blanks :: rest)

/-- The innermost dynamic tag that is open behind some tokens: everything it holds is closed. -/
def Innermost (before : List TagToken) (content : List Char) : Prop :=
  ∃ outer inside, before = outer ++ .opening content :: inside ∧ ¬ ClosesItself content ∧ Level inside

theorem Level.append {front back : List TagToken} (hf : Level front) (hb : Level back) :
    Level (front ++ back) := by
  induction hf with
  | nil => exact hb
  | char _ ih => exact .char ih
  | closed slash _ ih => exact .closed slash ih
  | endless _ ih => exact .endless ih
  | element noSlash inside _ _ ih =>
    rw [List.append_assoc, List.cons_append]
    exact .element noSlash inside ih

def pushToken (stack : List (List Char)) : TagToken → List (List Char)
  | .opening content => if ClosesItself content then stack else content :: stack
  | .closing _ => stack.tail
  | .char _ | .endless _ => stack

/-- The dynamic tags that are open behind some tokens, innermost first. -/
def openTags (before : List TagToken) : List (List Char) := before.foldl pushToken []

theorem openTags_concat (before : List TagToken) (token : TagToken) :
    openTags (before ++ [token]) = pushToken (openTags before) token := List.foldl_concat ..

theorem Level.foldl_pushToken {inside : List TagToken} (level : Level inside) (stack : List (List Char)) :
    inside.foldl pushToken stack = stack := by
  induction level generalizing stack with
  | nil => rfl
  | char _ ih => exact ih stack
  | closed slash _ ih => simp only [List.foldl_cons, pushToken, if_pos slash, ih]
  | endless _ ih => exact ih stack
  | element noSlash _ _ ihInside ih =>
    simp only [List.cons_append, List.foldl_cons, List.foldl_append, pushToken, if_neg noSlash, ihInside,
      List.tail_cons, ih]

/-- The innermost tag of the stack is open, and behind its opening tag everything is balanced. In front
of it, the other tags of the stack are open. -/
theorem openTags_eq_cons {before : List TagToken} {content : List Char} {stack : List (List Char)}
    (opened : openTags before = content :: stack) :
    ∃ outer inside, before = outer ++ .opening content :: inside ∧ ¬ ClosesItself content ∧
      Level inside ∧ openTags outer = stack := by
  -- a closing tag asks for the tag below the one it closes, so the induction is on the length
  induction len : before.length using Nat.strong_induction_on generalizing before content stack with
  | _ n ih =>
    subst len
    rcases List.eq_nil_or_concat before with rfl | ⟨front, token, rfl⟩
    · simp [openTags] at opened
    · rw [List.concat_eq_append] at opened ih ⊢
      rw [openTags_concat] at opened
      -- a token that opens and closes nothing stands inside of the tag that was open in front of it
      have passed (level : Level [token]) (same : openTags front = content :: stack) :
          ∃ outer inside, front ++ [token] = outer ++ .opening content :: inside ∧
            ¬ ClosesItself content ∧ Level inside ∧ openTags outer = stack := by
        obtain ⟨outer, inside, rfl, noSlash, inner, below⟩ := ih _ (by simp) same rfl
        exact ⟨outer, inside ++ [token], by simp, noSlash, inner.append level, below⟩
      cases token with
      | char c => exact passed (.char .nil) opened
      | endless text => exact passed (.endless .nil) opened
      | opening inner =>
        by_cases slash : ClosesItself inner
        · rw [pushToken, if_pos slash] at opened
          exact passed (.closed slash .nil) opened
        · rw [pushToken, if_neg slash, List.cons.injEq] at opened
          obtain ⟨rfl, below⟩ := opened
          exact ⟨front, [], rfl, slash, .nil, below⟩
      | closing blanks =>
        rw [pushToken] at opened
        obtain ⟨inner, nested⟩ : ∃ inner, openTags front = inner :: content :: stack := by
          cases whole : openTags front with
          | nil => simp [whole] at opened
          | cons inner tail => exact ⟨inner, by rw [← opened, whole, List.tail_cons]⟩
        obtain ⟨middle, inside, rfl, noSlash', level, upTo⟩ := ih _ (by simp) nested rfl
        obtain ⟨outer, between, rfl, noSlash, level', below⟩ :=
          ih _ (by simp only [List.length_append, List.length_cons]; omega) upTo rfl
        refine ⟨outer, between ++ (TagToken.opening inner :: inside ++ [TagToken.closing blanks]), by simp, noSlash, ?_,
          below⟩
        exact level'.append (.element noSlash' level .nil)

/-- The top of the stack is the innermost open tag. -/
theorem innermost_iff {before : List TagToken} {content : List Char} :
    Innermost before content ↔ (openTags before).head? = some content := by
  constructor
  · rintro ⟨outer, inside, rfl, noSlash, level⟩
    simp only [openTags, List.foldl_append, List.foldl_cons, pushToken, if_neg noSlash,
      level.foldl_pushToken, List.head?_cons]
  · intro top
    obtain ⟨stack, opened⟩ : ∃ stack, openTags before = content :: stack := by
      simpa [List.head?_eq_some_iff] using top
    obtain ⟨outer, inside, split, noSlash, level, -⟩ := openTags_eq_cons opened
    exact ⟨outer, inside, split, noSlash, level⟩

theorem Innermost.unique {before : List TagToken} {content other : List Char} (h : Innermost before content)
    (h' : Innermost before other) : content = other := by
  rw [innermost_iff] at h h'
  exact Option.some.inj (h.symm.trans h')

def NoneOpen (before : List TagToken) : Prop := ∀ content, ¬ Innermost before content

theorem noneOpen_iff {before : List TagToken} : NoneOpen before ↔ openTags before = [] := by
  simp only [NoneOpen, innermost_iff]
  cases openTags before <;> simp

instance (before : List TagToken) : Decidable (NoneOpen before) := decidable_of_iff _ noneOpen_iff.symm

/-! ## What is written for a token -/

section Rewritten

variable (target : Target) (table : Assoc String)

/-- The name of the component in an opening tag: the first attribute that names one, in front of the
slash of a tag that closes itself. -/
def componentName? (content : List Char) : Option (List Char) :=
  let inside := if ClosesItself content then (dropEndWhile isBlank content).dropLast else content
  (cutHit? (nameAttribute target) inside).map fun found => found.2.1

/-- The native tag of the component that an opening tag names, if the table knows it. -/
def nativeTag? (content : List Char) : Option (List Char) :=
  (componentName? target content).bind fun name => (table.get? (String.ofList name)).map String.toList

theorem readOpening_tag (content : List Char) :
    (readOpening target table content).tag = nativeTag? target table content := by
  have inside : (if ((dropEndWhile isBlank content).getLast? == some '/') = true then
      (dropEndWhile isBlank content).dropLast else content) =
      if ClosesItself content then (dropEndWhile isBlank content).dropLast else content :=
    if_congr beq_iff_eq rfl rfl
  simp only [readOpening, nativeTag?, componentName?, inside]
  cases cutHit? (nameAttribute target) _ <;> rfl

theorem readOpening_closesItself (content : List Char) :
    (readOpening target table content).closesItself = decide (ClosesItself content) := by
  have slash : ((dropEndWhile isBlank content).getLast? == some '/') = decide (ClosesItself content) := by
    rw [Bool.eq_iff_iff, beq_iff_eq, decide_eq_true_iff, ClosesItself]
  simp only [readOpening, slash]
  split <;> rfl

def TagToken.isMapped : TagToken → Bool
  | .opening content => (nativeTag? target table content).isSome
  | _ => false

/-- A token becomes a native tag if it opens a component in the table, or closes the innermost open tag
and that is of a component in the table. Every other token is copied. -/
inductive Rewritten (before : List TagToken) : TagToken → List Char → Prop
  | opening {content tag : List Char} : nativeTag? target table content = some tag →
      Rewritten before (.opening content)
        (nativeOpening tag (readOpening target table content).attributes (ClosesItself content))
  | closing {blanks content tag : List Char} :
      Innermost before content → nativeTag? target table content = some tag →
      Rewritten before (.closing blanks) ("</".toList ++ tag ++ ['>'])
  | copied {token : TagToken} : token.isMapped target table = false →
      (token.isClosing = true → ∀ content, Innermost before content →
        nativeTag? target table content = none) →
      Rewritten before token (token.text target)

/-- How many closing tags there are where no dynamic tag is open, behind the tokens `before`. -/
def strayClosings (before : List TagToken) : List TagToken → Nat
  | [] => 0
  | token :: rest =>
    (if token.isClosing = true ∧ NoneOpen before then 1 else 0) + strayClosings (before ++ [token]) rest

/-- A text and the outcome of its substitution, cut into tokens and what is written for them, where
`before` stands in front. -/
structure Cut (before : List TagToken) (text : List Char) (result : Repaired)
    (parts : List (TagToken × List Char)) : Prop where
  tokenized : Tokenized target (parts.map Prod.fst)
  input : (parts.map Prod.fst).flatMap (TagToken.text target) = text
  output : parts.flatMap Prod.snd = result.text
  written : ∀ front part back, parts = front ++ part :: back →
    Rewritten target table (before ++ front.map Prod.fst) part.1 part.2
  replaced : result.replaced = (parts.map Prod.fst).countP (TagToken.isMapped target table)
  unmatched : result.unmatched = strayClosings before (parts.map Prod.fst)

variable {target : Target} {table : Assoc String}

theorem Cut.nil (before : List TagToken) : Cut target table before [] { text := [] } [] where
  tokenized := .nil
  input := rfl
  output := rfl
  written front part back split := by cases front <;> simp at split
  replaced := rfl
  unmatched := rfl

/-- One token and what is written for it, in front of a cut text. -/
theorem Cut.cons {before : List TagToken} {token : TagToken} {out rest : List Char} {whole r : Repaired}
    {parts : List (TagToken × List Char)} (cut : Cut target table (before ++ [token]) rest r parts)
    (tokenized : Tokenized target (token :: parts.map Prod.fst))
    (written : Rewritten target table before token out) (text : whole.text = out ++ r.text)
    (replaced : whole.replaced = (if token.isMapped target table then 1 else 0) + r.replaced)
    (unmatched : whole.unmatched =
      (if token.isClosing = true ∧ NoneOpen before then 1 else 0) + r.unmatched) :
    Cut target table before (token.text target ++ rest) whole ((token, out) :: parts) where
  tokenized := tokenized
  input := by rw [List.map_cons, List.flatMap_cons, cut.input]
  output := by rw [List.flatMap_cons, cut.output, text]
  written front part back split := by
    cases front with
    | nil =>
      rw [List.nil_append, List.cons.injEq] at split
      obtain ⟨rfl, rfl⟩ := split
      simpa using written
    | cons first front =>
      rw [List.cons_append, List.cons.injEq] at split
      obtain ⟨rfl, split⟩ := split
      simpa using cut.written front part back split
  replaced := by
    rw [replaced, cut.replaced, List.map_cons, List.countP_cons, Nat.add_comm]
  unmatched := by rw [unmatched, cut.unmatched, List.map_cons, strayClosings]

/-- The stack of the substitution behind some tokens. -/
def tagStack (target : Target) (table : Assoc String) (before : List TagToken) : List (Option (List Char)) :=
  (openTags before).map (nativeTag? target table)

def substituteAfter (target : Target) (table : Assoc String) (before : List TagToken)
    (text : List Char) : Repaired :=
  substituteAt target table (tagStack target table before) text

theorem TagToken.text_ne_nil (target : Target) (token : TagToken) : token.text target ≠ [] := by
  cases token <;> simp [TagToken.text]

theorem TagToken.length_lt (target : Target) (token : TagToken) (rest : List Char) :
    rest.length < (token.text target ++ rest).length := by
  have positive := List.length_pos_of_ne_nil (token.text_ne_nil target)
  rw [List.length_append]
  omega

section Step

variable {before : List TagToken} {rest : List Char} {parts : List (TagToken × List Char)}

theorem Cut.char {c : Char} (nothing : markRule target none (c :: rest) = none)
    (noClosing : ¬ StartsClosing target (c :: rest)) (noOpening : ¬ StartsOpening target (c :: rest))
    (cut : Cut target table (before ++ [TagToken.char c]) rest
      (substituteAfter target table (before ++ [TagToken.char c]) rest) parts) :
    Cut target table before (c :: rest) (substituteAfter target table before (c :: rest))
      ((.char c, [c]) :: parts) := by
  have copied : Rewritten target table before (.char c) [c] := .copied rfl (by simp [TagToken.isClosing])
  have same : tagStack target table (before ++ [TagToken.char c]) = tagStack target table before := by
    rw [tagStack, openTags_concat, pushToken, tagStack]
  have step := substituteAt_char target table (tagStack target table before) nothing
  -- what follows is read into tokens, so the text that starts no tag here is theirs
  rw [← cut.input] at noClosing noOpening
  rw [substituteAfter, same] at cut
  rw [substituteAfter, step]
  exact cut.cons (.char noClosing noOpening cut.tokenized) copied rfl rfl
    (by simp [TagToken.isClosing, Repaired.behind])

theorem rewritten_closeTag (before : List TagToken) (blanks : List Char) :
    Rewritten target table before (.closing blanks)
      (closeTag ((TagToken.closing blanks).text target) (tagStack target table before)).1 := by
  cases opened : openTags before with
  | nil =>
    have nothing : NoneOpen before := noneOpen_iff.mpr opened
    simp only [tagStack, opened, List.map_nil, closeTag]
    exact .copied rfl fun _ content innermost => absurd innermost (nothing content)
  | cons content stack =>
    have innermost : Innermost before content := by rw [innermost_iff, opened, List.head?_cons]
    simp only [tagStack, opened, List.map_cons]
    cases tag : nativeTag? target table content with
    | some tag => exact .closing innermost tag
    | none =>
      refine .copied rfl fun _ other innermost' => ?_
      rwa [innermost.unique innermost'] at tag

theorem closeTag_unmatched (before : List TagToken) (raw : List Char) :
    (closeTag raw (tagStack target table before)).2 = !decide (NoneOpen before) := by
  simp only [tagStack, noneOpen_iff]
  cases openTags before with
  | nil => rfl
  | cons content stack => cases tag : nativeTag? target table content <;> simp [tag, closeTag]

theorem Cut.closing {blanks : List Char} (blank : ∀ c ∈ blanks, isBlank c = true)
    (mark : markRule target none ((TagToken.closing blanks).text target ++ rest) = some (.closing, rest))
    (cut : Cut target table (before ++ [TagToken.closing blanks]) rest
      (substituteAfter target table (before ++ [TagToken.closing blanks]) rest) parts) :
    ∃ out, Cut target table before ((TagToken.closing blanks).text target ++ rest)
      (substituteAfter target table before ((TagToken.closing blanks).text target ++ rest))
      ((.closing blanks, out) :: parts) := by
  have below : tagStack target table (before ++ [TagToken.closing blanks]) = (tagStack target table before).tail := by
    rw [tagStack, openTags_concat, pushToken, List.map_tail, tagStack]
  have step := substituteAt_mark target table (tagStack target table before) (TagToken.text_ne_nil target _) mark
  rw [substituteFrom, ← substituteAt, ← below, ← substituteAfter, ← substituteAfter] at step
  have read : Tokenized target (.closing blanks :: parts.map Prod.fst) := .closing blank cut.tokenized
  refine ⟨_, cut.cons read (rewritten_closeTag before blanks) ?_ ?_ ?_⟩
  · rw [step]
  · simp [step, TagToken.isMapped]
  · by_cases nothing : NoneOpen before <;>
      simp [step, closeTag_unmatched, TagToken.isClosing, nothing, Nat.add_comm]

theorem Cut.opening {content : List Char} (ends : content.head?.all endsTagName = true)
    (ended : EndsTag (0, none) content)
    (mark : markRule target none ((TagToken.opening content).text target ++ rest) = some (.opening content, rest))
    (cut : Cut target table (before ++ [TagToken.opening content]) rest
      (substituteAfter target table (before ++ [TagToken.opening content]) rest) parts) :
    ∃ out, Cut target table before ((TagToken.opening content).text target ++ rest)
      (substituteAfter target table before ((TagToken.opening content).text target ++ rest))
      ((.opening content, out) :: parts) := by
  have above : tagStack target table (before ++ [TagToken.opening content]) =
      if ClosesItself content then tagStack target table before
      else nativeTag? target table content :: tagStack target table before := by
    rw [tagStack, openTags_concat, pushToken]
    split <;> rfl
  have step := substituteAt_mark target table (tagStack target table before) (TagToken.text_ne_nil target _) mark
  simp only [substituteFrom, readOpening_tag, readOpening_closesItself, decide_eq_true_eq] at step
  rw [← above, ← substituteAt, ← substituteAfter, ← substituteAfter] at step
  have read : Tokenized target (.opening content :: parts.map Prod.fst) := .opening ends ended cut.tokenized
  cases tag : nativeTag? target table content with
  | some tag =>
    refine ⟨_, cut.cons read (.opening tag) ?_ ?_ ?_⟩
    · simp [step, tag]
    · simp [step, tag, TagToken.isMapped, Nat.add_comm]
    · simp [step, tag, TagToken.isClosing]
  | none =>
    have copied : Rewritten target table before (.opening content) ((TagToken.opening content).text target) :=
      .copied (by simp [TagToken.isMapped, tag]) (by simp [TagToken.isClosing])
    refine ⟨_, cut.cons read copied ?_ ?_ ?_⟩
    · simp [step, tag]
    · simp [step, tag, TagToken.isMapped]
    · simp [step, tag, TagToken.isClosing]

theorem Cut.endless {content : List Char} (ends : content.head?.all endsTagName = true)
    (endless : Endless (0, none) content)
    (mark : markRule target none ((TagToken.endless content).text target) = some (.endless, [])) :
    Cut target table before ((TagToken.endless content).text target)
      (substituteAfter target table before ((TagToken.endless content).text target))
      [(.endless content, (TagToken.endless content).text target)] := by
  have copied : Rewritten target table before (.endless content) ((TagToken.endless content).text target) :=
    .copied rfl (by simp [TagToken.isClosing])
  have found : markRule target none ((TagToken.endless content).text target ++ []) = some (.endless, []) := by
    rwa [List.append_nil]
  have step := substituteAt_mark target table (tagStack target table before) (TagToken.text_ne_nil target _) found
  simp only [segmentsFrom, substituteFrom, List.append_nil] at step
  have cut : Cut target table before ((TagToken.endless content).text target ++ [])
      (substituteAfter target table before ((TagToken.endless content).text target))
      [(.endless content, (TagToken.endless content).text target)] := by
    refine (Cut.nil _).cons (.endless ends endless) copied ?_ ?_ ?_
    · simp [substituteAfter, step]
    · simp [substituteAfter, step, TagToken.isMapped]
    · simp [substituteAfter, step, TagToken.isClosing]
  rwa [List.append_nil] at cut

end Step

theorem exists_cut (text : List Char) (before : List TagToken) :
    ∃ parts, Cut target table before text (substituteAfter target table before text) parts := by
  induction len : text.length using Nat.strong_induction_on generalizing text before with
  | _ n ih =>
    subst len
    rcases markRule_cases target text with ⟨nothing, noClosing, noOpening⟩ | ⟨blanks, rest, blank, rfl, mark⟩ |
      ⟨content, rest, ends, ended, rfl, mark⟩ | ⟨content, ends, endless, rfl, mark⟩
    · cases text with
      | nil => exact ⟨[], by rw [substituteAfter, substituteAt_nil]; exact .nil before⟩
      | cons c rest =>
        obtain ⟨parts, cut⟩ := ih _ (by simp) rest (before ++ [TagToken.char c]) rfl
        exact ⟨_, cut.char nothing noClosing noOpening⟩
    · obtain ⟨parts, cut⟩ := ih _ (TagToken.length_lt target _ rest) rest (before ++ [TagToken.closing blanks]) rfl
      obtain ⟨out, cut⟩ := cut.closing blank mark
      exact ⟨_, cut⟩
    · obtain ⟨parts, cut⟩ := ih _ (TagToken.length_lt target _ rest) rest (before ++ [TagToken.opening content]) rfl
      obtain ⟨out, cut⟩ := cut.opening ends ended mark
      exact ⟨_, cut⟩
    · exact ⟨_, .endless ends endless mark⟩

end Rewritten

/-- The substitution rewrites a text token by token: opening tags of components in the table, which it
counts, and closing tags of these become native tags, and all else is copied. It counts the closing tags
that have nothing to close. A text of which it replaces nothing stays the same. -/
theorem substituteTags_cut (text : List Char) (target : Target) (table : Assoc String) :
    let result := substituteTags text target table
    (∃ parts, Cut target table [] text result parts) ∧ (result.replaced = 0 → result.text = text) := by
  refine ⟨exists_cut text [], fun nothing => ?_⟩
  exact substituteTags_text_of_unknown ((substituteTags_replaced_eq_zero_iff target table text).mp nothing)

-- a closing tag in a quoted value is not read as one, and the first one has nothing to close
example :
    substituteTags "</component><component :is=\"Box\" a=\"</component>\">hi</component >".toList .vue
      [("Box", "div")] = ⟨"</component><div a=\"</component>\">hi</div>".toList, 1, 1⟩ := by
  decide +kernel

end Recast.Repair
