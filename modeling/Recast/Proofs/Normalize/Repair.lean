import Recast.Proofs.Normalize.Token
import Recast.Proofs.Repair.Progress

/-!
# Repairing markup with dynamic tags

Substituting native tags in a text with dynamic tags gives the same text with native tags, but for
the closing tags of void elements, and these are removed next. The text must not hold the start of a
dynamic tag or of a script that no primitive accounts for.
-/

set_option autoImplicit false

namespace Recast.Normalize

open Recast.Text Recast.Repair

/-! ## Reserved tags -/

/-- How the tags of dynamic components start, behind the bracket. -/
def dynamicStarts (target : Target) : List (List Char) := [dynamicTag target, '/' :: dynamicTag target]

/-- How the tags start that are not the author's to write: those of dynamic components and scripts. -/
def reservedStarts (target : Target) : List (List Char) := "script".toList :: dynamicStarts target

/-- None of these tags starts anywhere in a text. -/
def Lacks (starts : List (List Char)) (text : List Char) : Prop :=
  ∀ start ∈ starts, occurs ('<' :: start) text = false

instance (starts : List (List Char)) (text : List Char) : Decidable (Lacks starts text) :=
  inferInstanceAs (Decidable (∀ start ∈ starts, _))

theorem Lacks.of_append {starts : List (List Char)} {front back : List Char}
    (h : Lacks starts (front ++ back)) : Lacks starts back := fun start member =>
  occurs_of_append (h start member)

theorem Lacks.dynamic {target : Target} {text : List Char} (h : Lacks (reservedStarts target) text) :
    Lacks (dynamicStarts target) text := fun start member => h start (.tail _ member)

theorem reservedStart_chars {target : Target} {start : List Char}
    (member : start ∈ reservedStarts target) : ∀ c ∈ start, c ≠ '<' ∧ c ≠ '>' ∧ c ≠ ' ' := by
  have checked : (reservedStarts target).all
      (fun start => start.all fun c => c != '<' && c != '>' && c != ' ') = true := by
    cases target <;> decide
  intro c inStart
  have letter := List.all_eq_true.mp (List.all_eq_true.mp checked start member) c inStart
  simp only [Bool.and_eq_true, bne_iff_ne] at letter
  exact ⟨letter.1.1, letter.1.2, letter.2⟩

/-- Whether plain characters start a text does not depend on how the tags in it are spelled. -/
theorem after?_spell_isSome (target : Target) {body : List Char}
    (plain : ∀ c ∈ body, c ≠ '<' ∧ c ≠ '>' ∧ c ≠ ' ') (a b : Stage) (ts : List Token) :
    (after? body (spell target a ts)).isSome = (after? body (spell target b ts)).isSome := by
  induction body generalizing ts with
  | nil => rfl
  | cons c body ih =>
    obtain ⟨noOpen, noClose, noBlank⟩ := plain c (by simp)
    have later : ∀ d ∈ body, d ≠ '<' ∧ d ≠ '>' ∧ d ≠ ' ' := fun d hd => plain d (by simp [hd])
    cases ts with
    | nil => rfl
    | cons t ts =>
      cases t with
      | char d =>
        simp only [spell_cons, Token.text, List.singleton_append, after?]
        split
        · exact ih later ts
        · rfl
      | opens p =>
        cases a <;> cases b <;> simp [Token.text, after?, noOpen]
      | closes p =>
        cases a <;> cases b <;> simp [Token.text, after?, noOpen, closingMarker_eq]
      | finishes p =>
        cases a <;> cases b <;> simp [Token.text, after?, noClose, noBlank]

/-- At a bracket that is the author's, no reserved tag starts in any spelling. -/
theorem after?_reserved {target : Target} {ts : List Token} {c : Char}
    (absent : Lacks (reservedStarts target) (spell target .native (.char c :: ts))) (stage : Stage)
    {start : List Char} (member : start ∈ reservedStarts target) :
    after? ('<' :: start) (c :: spell target stage ts) = none := by
  have here : after? ('<' :: start) (c :: spell target .native ts) = none :=
    (occurs_cons_eq_false (absent start member)).1
  rw [after?] at here ⊢
  split at here
  · have same := after?_spell_isSome target (reservedStart_chars member) .native stage ts
    rw [here] at same
    rw [if_pos ‹_›]
    simpa using same.symm
  · rw [if_neg ‹_›]

theorem markRule_eq_none_of_after {target : Target} {cs : List Char}
    (opening : after? ('<' :: dynamicTag target) cs = none)
    (closing : after? ('<' :: '/' :: dynamicTag target) cs = none) (previous : Option Char) :
    markRule target previous cs = none := by
  have closing' : after? ("</".toList ++ dynamicTag target) cs = none := closing
  simp only [markRule, closing', opening, Option.bind_none, Option.filter_none]

theorem markRule_author {target : Target} {ts : List Token} {c : Char}
    (absent : Lacks (reservedStarts target) (spell target .native (.char c :: ts))) (stage : Stage)
    (previous : Option Char) : markRule target previous (c :: spell target stage ts) = none :=
  markRule_eq_none_of_after (after?_reserved absent stage (.tail _ (.head _)))
    (after?_reserved absent stage (.tail _ (.tail _ (.head _)))) previous

/-! ## Substituting native tags -/

/-- The stack of native tags while these primitives are open. -/
def stackOf (s : List Primitive) : List (Option (List Char)) := s.map fun p => some p.tag.toList

theorem readOpening_primitive (target : Target) (p : Primitive) {text : List Char}
    (h : Attributes text) :
    readOpening target Catalog.primitiveTags (nameText target p.name.toList ++ text) =
      ⟨some p.tag.toList, stripChars text, false⟩ := by
  have read := readOpening_open target Catalog.primitiveTags p.name_ne_nil p.name_chars h.getLast?_ne_slash
  rwa [String.ofList_toList, p.known] at read

theorem substituteAt_opens (target : Target) (p : Primitive) {text : List Char} (h : Attributes text)
    (s : List Primitive) (rest : List Char) :
    (substituteAt target Catalog.primitiveTags (stackOf s)
        ((Token.opens p).text target .dynamic ++ (text ++ '>' :: rest))).text =
      '<' :: p.tag.toList ++ text ++ (if p.isVoid then [' ', '/', '>'] else ['>']) ++
        (substituteAt target Catalog.primitiveTags (stackOf (p :: s)) rest).text := by
  have start : (nameText target p.name.toList ++ text).head? = some ' ' := by cases target <;> rfl
  have balanced : Balanced false (nameText target p.name.toList ++ text) :=
    (nameText_balanced target p.name_chars).append h.balanced
  have step := substituteAt_opening target Catalog.primitiveTags (stackOf s) start balanced
    (readOpening_primitive target p h) rest
  have shape : (Token.opens p).text target .dynamic ++ (text ++ '>' :: rest) =
      '<' :: dynamicTag target ++ (nameText target p.name.toList ++ text) ++ ['>'] ++ rest := by
    simp [Token.text]
  rw [shape, step]
  simp only [Repaired.behind, nativeOpening, h.spaced_eq, String.ofList_toList, Bool.false_or,
    Bool.false_eq_true, if_false, Primitive.isVoid, stackOf, List.map_cons]
  rfl

theorem substituteAt_closes (target : Target) (p : Primitive) (s : List Primitive) (rest : List Char) :
    (substituteAt target Catalog.primitiveTags (stackOf (p :: s)) (closingMarker target ++ rest)).text =
      '<' :: '/' :: (p.tag.toList ++ ['>']) ++
        (substituteAt target Catalog.primitiveTags (stackOf s) rest).text := by
  have step := substituteAt_closing target Catalog.primitiveTags (stackOf s) (some p.tag.toList) rest
  rw [stackOf, List.map_cons, ← stackOf, step]
  simp [Repaired.behind, closeTag]

theorem substituteAt_spell (target : Target) {s s' : List Primitive} {ts : List Token}
    (reads : Reads s ts s') (absent : Lacks (reservedStarts target) (spell target .native ts)) :
    (substituteAt target Catalog.primitiveTags (stackOf s) (spell target .dynamic ts)).text =
      spell target .substituted ts := by
  induction reads with
  | nil s => rw [spell_nil, substituteAt_nil, spell_nil]
  | @char s s' c ts _ ih =>
    have author := markRule_author absent .dynamic none
    have later : Lacks (reservedStarts target) (spell target .native ts) := by
      rw [spell_cons] at absent
      exact absent.of_append
    have step := substituteAt_char target Catalog.primitiveTags (stackOf s) author
    rw [spell_cons, Token.text, List.singleton_append, step, Repaired.behind, ih later]
    rfl
  | @opened s s' p text ts plain attributes _ ih =>
    have later : Lacks (reservedStarts target) (spell target .native ts) := by
      simp only [spell_cons, spell_append, spell_chars, ← List.append_assoc] at absent
      exact absent.of_append
    simp only [spell_cons, spell_append, spell_chars]
    have step := substituteAt_opens target p attributes s (spell target .dynamic ts)
    rw [Token.text, List.singleton_append, step, ih later, plain]
    simp [Token.text]
  | @closed s s' p ts _ _ ih =>
    have later : Lacks (reservedStarts target) (spell target .native ts) := by
      rw [spell_cons] at absent
      exact absent.of_append
    rw [spell_cons, Token.text, substituteAt_closes, ih later]
    rfl
  | @void s s' p text ts isVoid attributes _ ih =>
    have later : Lacks (reservedStarts target) (spell target .native ts) := by
      simp only [spell_cons, spell_append, spell_chars, ← List.append_assoc] at absent
      exact absent.of_append
    simp only [spell_cons, spell_append, spell_chars]
    have step := substituteAt_opens target p attributes s
      (closingMarker target ++ spell target .dynamic ts)
    have whole : (Token.finishes p).text target .dynamic ++ spell target .dynamic ts =
        '>' :: (closingMarker target ++ spell target .dynamic ts) := rfl
    rw [whole, step, substituteAt_closes, ih later, isVoid]
    simp [Token.text]

/-! ## Closing tags of void elements -/

section VoidClosing

variable {tag : String} (isVoid : tag ∈ Markup.voidTags)

theorem voidTag_chars : ∀ tag ∈ Markup.voidTags,
    tag.toList ≠ [] ∧ '>' ∉ tag.toList ∧ '/' ∉ tag.toList := by
  decide +kernel

include isVoid

theorem bracket_not_mem {blanks : List Char} (all : ∀ c ∈ blanks, isBlank c = true) :
    '>' ∉ "</".toList ++ (tag.toList ++ blanks) := by
  simp only [List.mem_append, not_or]
  refine ⟨by decide, (voidTag_chars tag isVoid).2.1, fun inBlanks => ?_⟩
  exact absurd (all _ inBlanks) (by decide)

theorem voidClosing_spelled (p : Option Char) {blanks : List Char}
    (all : ∀ c ∈ blanks, isBlank c = true) (rest : List Char) :
    voidClosing p (("</".toList ++ (tag.toList ++ blanks)) ++ '>' :: rest) = some ([], rest) := by
  have text : ("</".toList ++ (tag.toList ++ blanks)) ++ '>' :: rest =
      "</".toList ++ (tag.toList ++ (blanks ++ (">".toList ++ rest))) := by simp
  have bracket : afterWord? ">" (blanks ++ (">".toList ++ rest)) = some rest :=
    afterWord?_append all (by decide) (by decide) rest
  -- some void tag is found, if not this one, and the rest starts behind the first bracket anyway
  cases found : voidClosing p (("</".toList ++ (tag.toList ++ blanks)) ++ '>' :: rest) with
  | none =>
    simp only [text, voidClosing, after?_append, Option.bind_eq_bind, Option.bind_some,
      Option.bind_eq_none_iff, Option.pure_def, reduceCtorEq, imp_false] at found
    have missing : Markup.voidTags.findSome? (fun t =>
        (after? t.toList (tag.toList ++ (blanks ++ (">".toList ++ rest)))).bind (afterWord? ">")) =
          none := Option.eq_none_iff_forall_ne_some.mpr found
    have here := List.findSome?_eq_none_iff.mp missing tag isVoid
    rw [after?_append, Option.bind_some, bracket] at here
    exact absurd here (by simp)
  | some hit =>
    obtain ⟨new, rest'⟩ := hit
    obtain ⟨rfl, tag', isVoid', blanks', all', shape⟩ := voidClosing_eq_some found
    have shape' : ("</".toList ++ (tag.toList ++ blanks)) ++ '>' :: rest =
        ("</".toList ++ (tag'.toList ++ blanks')) ++ '>' :: rest' := by simpa using shape
    have same := append_cons_inj_of_not_mem (bracket_not_mem isVoid all)
      (bracket_not_mem isVoid' all') shape'
    rw [same.2]

end VoidClosing

theorem voidClosing_eq_none_of_ne {c : Char} (h : c ≠ '<') (p : Option Char) (cs : List Char) :
    voidClosing p (c :: cs) = none := by
  have front : after? "</".toList (c :: cs) = none := after?_eq_none_of_head h.symm _ _
  simp only [voidClosing, front, Option.bind_none, Option.bind_eq_bind]

/-- What is recognized in front of the end of a tag that closes itself ends in front of it. -/
theorem voidClosing_in_front {p : Option Char} {front back new rest : List Char}
    (found : voidClosing p (front ++ ' ' :: '/' :: '>' :: back) = some (new, rest)) :
    new = [] ∧ ∃ raw more, raw ≠ [] ∧ front = raw ++ more ∧
      ∀ back', voidClosing p (raw ++ (more ++ ' ' :: '/' :: '>' :: back')) =
        some ([], more ++ ' ' :: '/' :: '>' :: back') := by
  obtain ⟨rfl, tag, isVoid, blanks, all, shape⟩ := voidClosing_eq_some found
  have shape' : front ++ ' ' :: '/' :: '>' :: back =
      ("</".toList ++ (tag.toList ++ blanks)) ++ '>' :: rest := by simpa using shape
  have noBracket := bracket_not_mem isVoid all
  refine ⟨rfl, ?_⟩
  by_cases inFront : '>' ∈ front
  · obtain ⟨before, more, split, first⟩ := List.eq_append_cons_of_mem inFront
    rw [split, List.append_assoc, List.cons_append] at shape'
    obtain ⟨rfl, _⟩ := append_cons_inj_of_not_mem first noBracket shape'
    refine ⟨("</".toList ++ (tag.toList ++ blanks)) ++ ['>'], more, by simp, by simp [split], ?_⟩
    intro back'
    rw [List.append_assoc, List.singleton_append]
    exact voidClosing_spelled isVoid p all _
  · have whole : (front ++ [' ', '/']) ++ '>' :: back =
        ("</".toList ++ (tag.toList ++ blanks)) ++ '>' :: rest := by simpa using shape'
    have first : '>' ∉ front ++ [' ', '/'] := by simp [inFront]
    obtain ⟨same, _⟩ := append_cons_inj_of_not_mem first noBracket whole
    -- a closing tag has no slash right in front of its bracket
    have last := congrArg List.getLast? same
    have nonempty : tag.toList ++ blanks ≠ [] := by simp [(voidTag_chars tag isVoid).1]
    rw [List.getLast?_append_of_ne_nil _ (by simp), List.getLast?_append_of_ne_nil _ nonempty] at last
    have slash : '/' ∈ tag.toList ++ blanks := List.mem_of_getLast? last.symm
    rcases List.mem_append.mp slash with inTag | inBlanks
    · exact absurd inTag (voidTag_chars tag isVoid).2.2
    · exact absurd (all _ inBlanks) (by decide)

theorem substituteBehind_voidClosing_cons {c : Char} (h : c ≠ '<') (p : Option Char) (cs : List Char) :
    substituteBehind voidClosing p (c :: cs) = c :: substituteBehind voidClosing none cs := by
  rw [substituteBehind_of_none (voidClosing_eq_none_of_ne h p cs),
    substituteBehind_previous (fun _ _ _ => rfl) (some c) none]

theorem substituteBehind_voidClosing_spelled {tag : String} (isVoid : tag ∈ Markup.voidTags)
    (rest : List Char) :
    substituteBehind voidClosing none ('<' :: '/' :: (tag.toList ++ '>' :: rest)) =
      substituteBehind voidClosing none rest := by
  have shape : '<' :: '/' :: (tag.toList ++ '>' :: rest) =
      ("</".toList ++ (tag.toList ++ [])) ++ '>' :: rest := by simp
  have hit := voidClosing_spelled isVoid none (List.forall_mem_nil _) rest
  rw [shape, List.append_cons] at *
  rw [substituteBehind_of_some (by simp) hit, List.nil_append]
  exact substituteBehind_previous (fun _ _ _ => rfl) _ none rest

/-- The closing tag behind a void element that closes itself is removed. -/
theorem substituteBehind_voidClosing_drop {tag : String} (isVoid : tag ∈ Markup.voidTags)
    (front back : List Char) :
    substituteBehind voidClosing none
        (front ++ ' ' :: '/' :: '>' :: ('<' :: '/' :: (tag.toList ++ '>' :: back))) =
      substituteBehind voidClosing none (front ++ ' ' :: '/' :: '>' :: back) := by
  induction length : front.length using Nat.strong_induction_on generalizing front with
  | _ n ih =>
    cases front with
    | nil =>
      simp only [List.nil_append, substituteBehind_voidClosing_cons (show ' ' ≠ '<' by decide),
        substituteBehind_voidClosing_cons (show '/' ≠ '<' by decide),
        substituteBehind_voidClosing_cons (show '>' ≠ '<' by decide),
        substituteBehind_voidClosing_spelled isVoid]
    | cons c front =>
      cases found : voidClosing none (c :: front ++ ' ' :: '/' :: '>' :: back) with
      | some hit =>
        obtain ⟨_, raw, more, nonempty, split, everywhere⟩ := voidClosing_in_front found
        have shorter : more.length < n := by
          have total := congrArg List.length split
          have positive := List.length_pos_of_ne_nil nonempty
          simp only [List.length_cons, List.length_append] at total length
          omega
        have step : ∀ back', substituteBehind voidClosing none
            (c :: front ++ ' ' :: '/' :: '>' :: back') =
              substituteBehind voidClosing none (more ++ ' ' :: '/' :: '>' :: back') := by
          intro back'
          rw [split, List.append_assoc, substituteBehind_of_some nonempty (everywhere back'),
            List.nil_append]
          exact substituteBehind_previous (fun _ _ _ => rfl) _ none _
        rw [step, step, ih _ shorter more rfl]
      | none =>
        have none' : voidClosing none
            (c :: front ++ ' ' :: '/' :: '>' :: ('<' :: '/' :: (tag.toList ++ '>' :: back))) = none := by
          by_contra some'
          obtain ⟨hit, found'⟩ := Option.ne_none_iff_exists'.mp some'
          obtain ⟨_, raw, more, nonempty, split, everywhere⟩ := voidClosing_in_front found'
          rw [split, List.append_assoc, everywhere back] at found
          exact absurd found (by simp)
        have shorter : front.length < n := by
          rw [← length, List.length_cons]
          exact Nat.lt_succ_self _
        rw [List.cons_append] at found none'
        rw [List.cons_append, List.cons_append, substituteBehind_of_none found,
          substituteBehind_of_none none', substituteBehind_previous (fun _ _ _ => rfl) (some c) none,
          ih _ shorter front rfl, substituteBehind_previous (fun _ _ _ => rfl) none (some c)]

/-- Removing the closing tags of void elements takes a text as the substitution leaves it to one with
native tags. -/
theorem substitute_voidClosing_spell (target : Target) {s s' : List Primitive} {ts : List Token}
    (reads : Reads s ts s') (front : List Char) :
    substitute voidClosing (front ++ spell target .substituted ts) =
      substitute voidClosing (front ++ spell target .native ts) := by
  induction reads generalizing front with
  | nil => rfl
  | char c _ ih =>
    have moved := ih (front ++ [c])
    simpa [Token.text] using moved
  | @opened s s' p text ts plain attributes _ ih =>
    have moved := ih (front ++ '<' :: (p.tag.toList ++ text ++ ['>']))
    simpa [Token.text] using moved
  | @closed s s' p ts _ _ ih =>
    have moved := ih (front ++ '<' :: '/' :: (p.tag.toList ++ ['>']))
    simpa [Token.text] using moved
  | @void s s' p text ts isVoid attributes _ ih =>
    have known : p.tag ∈ Markup.voidTags := by simpa [Primitive.isVoid] using isVoid
    have moved := ih (front ++ '<' :: (p.tag.toList ++ text ++ [' ', '/', '>']))
    have dropped := substituteBehind_voidClosing_drop known
      (front ++ '<' :: (p.tag.toList ++ text)) (spell target .substituted ts)
    rw [← substitute_eq, ← substitute_eq] at dropped
    simp only [List.append_assoc, List.cons_append, List.nil_append] at moved dropped
    simp only [spell_cons, spell_append, spell_chars, Token.text, List.append_assoc, List.cons_append,
      List.nil_append]
    rw [dropped, moved]

theorem fixMarkup_spell (target : Target) (runes : Bool) {s s' : List Primitive} {ts : List Token}
    (reads : Reads s ts s') :
    fixMarkup target runes (spell target .substituted ts) =
      fixMarkup target runes (spell target .native ts) := by
  have same := substitute_voidClosing_spell target reads []
  rw [List.nil_append, List.nil_append] at same
  simp only [fixMarkup, same]

end Recast.Normalize
