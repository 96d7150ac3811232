import Recast.Proofs.ClassExpr.Moved

/-!
# The merging call around a span

In code the search for the merging call around a span finds the innermost one that the code has. A call
that starts behind the span or ends in front of it is passed over.
-/

set_option autoImplicit false

namespace Recast.ClassExpr

open Recast.Text

namespace Code

variable {P : Char → List Char → Prop} {e : Code} {span : Span} {best : Option (Nat × Nat)} {i : Nat}

/-- The innermost merging call around a span in code that starts at a place, or else the one found so far. -/
def enclosing (span : Span) : Nat → Option (Nat × Nat) → Code → Option (Nat × Nat)
  | _, best, done => best
  | i, best, word t rest => rest.enclosing span (i + t.length) best
  | i, best, call t gap inside rest =>
    let openAt := i + t.length + gap.length
    let closeAt := openAt + 1 + inside.chars.length
    let best := if t = mergeName ∧ i ≤ span.start ∧ span.stop ≤ closeAt then some (openAt, closeAt) else best
    rest.enclosing span (openAt + (inside.chars.length + 2)) (inside.enclosing span (openAt + 1) best)
  | i, best, group _ inside rest =>
    rest.enclosing span (i + (inside.chars.length + 2)) (inside.enclosing span (i + 1) best)
  | i, best, literal _ contents rest => rest.enclosing span (i + (contents.length + 2)) best
  | i, best, mark _ rest => rest.enclosing span (i + 1) best

/-- Calls behind the start of a span are not around it. -/
theorem enclosing_of_lt (passed : span.start < i) : e.enclosing span i best = best := by
  induction e generalizing i best with
  | done => rfl
  | word t rest ih => exact ih (by omega)
  | call t gap inside rest ihInside ih =>
    rw [enclosing, if_neg (by omega), ihInside (by omega), ih (by omega)]
  | group b inside rest ihInside ih => rw [enclosing, ihInside (by omega), ih (by omega)]
  | literal q t rest ih => exact ih (by omega)
  | mark c rest ih => exact ih (by omega)

/-- Calls that end in front of a span are not around it. -/
theorem enclosing_of_le (ends : i + e.chars.length ≤ span.start) (ordered : span.start < span.stop) :
    e.enclosing span i best = best := by
  induction e generalizing i best with
  | done => rfl
  | word t rest ih =>
    simp only [chars, List.length_append] at ends
    exact ih (by omega)
  | call t gap inside rest ihInside ih =>
    simp only [chars, List.length_append, List.length_cons] at ends
    rw [enclosing, if_neg (by omega), ihInside (by omega), ih (by omega)]
  | group b inside rest ihInside ih =>
    simp only [chars, List.length_append, List.length_cons] at ends
    rw [enclosing, ihInside (by omega), ih (by omega)]
  | literal q t rest ih =>
    simp only [chars, List.length_append, List.length_cons] at ends
    exact ih (by omega)
  | mark c rest ih =>
    simp only [chars, List.length_cons] at ends
    exact ih (by omega)

theorem enclosing_append (a b : Code) :
    (a.append b).enclosing span i best = b.enclosing span (i + a.chars.length) (a.enclosing span i best) := by
  induction a generalizing i best with
  | done => rfl
  | word t rest ih => simp only [append, enclosing, ih, chars, List.length_append, Nat.add_assoc]
  | call t gap inside rest _ ih =>
    simp only [append, enclosing, ih, chars, List.length_append, List.length_cons]
    congr 1
    omega
  | group k inside rest _ ih =>
    simp only [append, enclosing, ih, chars, List.length_append, List.length_cons]
    congr 1
    omega
  | literal q t rest ih =>
    simp only [append, enclosing, ih, chars, List.length_append, List.length_cons]
    congr 1
    omega
  | mark c rest ih =>
    simp only [append, enclosing, ih, chars, List.length_cons]
    congr 1
    omega

theorem enclosingBehind_char {c : Char} (other : joinsName c = false) (front rest : List Char) :
    enclosingBehind span front (c :: rest) best = enclosingBehind span (front ++ [c]) rest best := by
  have silent : Silent (callRule mergeName) front.getLast? [c] rest :=
    silent_of_not_joinsName isName_mergeName (by simpa using other) _ _
  exact enclosingBehind_silent silent

/-- Behind code the search for the merging call goes on with the innermost one of the code. -/
theorem enclosingBehind_chars (closed : ∀ q t, P q t → Closed q t)
    (quiet : ∀ q t, P q t → findCall? mergeName t 0 = none) (formed : e.Formed P) {front rest : List Char}
    (starts : e.startsName = true → front.getLast?.any joinsName = false) (ends : Ends rest) :
    enclosingBehind span front (e.chars ++ rest) best =
      enclosingBehind span (front ++ e.chars) rest (e.enclosing span front.length best) := by
  induction e generalizing front rest best with
  | done => rw [chars, List.append_nil, List.nil_append, enclosing]
  | word t next ih =>
    obtain ⟨isName, apart, behind⟩ := formed
    have noName : next.startsName = true → (front ++ t).getLast?.any joinsName = false := by
      intro starts
      simp [Code.apart, starts] at apart
    rw [chars, List.append_assoc,
      enclosingBehind_silent (silent_word closed isName_mergeName isName behind apart ends _),
      ih behind noName ends, enclosing, List.length_append, List.append_assoc]
  | call t gap inside next ihInside ih =>
    obtain ⟨isName, blank, within, behind⟩ := formed
    have whole : (Code.call t gap inside next).chars ++ rest = callText t gap inside.chars ++ (next.chars ++ rest) := by
      simp [chars, callText]
    by_cases passed : span.start < front.length
    · rw [enclosingBehind_of_lt passed, enclosing_of_lt passed, enclosingBehind_of_lt]
      rw [List.length_append]
      omega
    have ended : ∀ front : List Char, next.startsName = true →
        (front ++ [Bracket.round.closing]).getLast?.any joinsName = false :=
      fun front _ => unjoined_concat (by decide) front
    by_cases merges : t = mergeName
    · subst merges
      have call := callBehind closed isName blank within (starts rfl) (next.chars ++ rest)
      rw [whole, enclosingBehind_call call (by omega)]
      dsimp only
      rw [← Bracket.closing, ihInside within (fun _ => unjoined_opening front _ _) (ends_closing .round _),
        enclosingBehind_char (by decide), ih behind (ended _) ends]
      have started : front.length ≤ span.start := by omega
      simp [enclosing, chars, started, Bracket.closing, Nat.add_assoc]
    · have opened : callText t gap inside.chars ++ (next.chars ++ rest) =
          (t ++ (gap ++ ['('])) ++ (inside.chars ++ Bracket.round.closing :: (next.chars ++ rest)) := by
        simp [callText, Bracket.closing]
      rw [whole, opened, enclosingBehind_silent (silent_call isName_mergeName isName blank merges _ _),
        ihInside within (fun _ => unjoined_opening front _ _) (ends_closing .round _),
        enclosingBehind_char (by decide), ih behind (ended _) ends]
      simp [enclosing, chars, merges, Bracket.closing, Nat.add_assoc]
  | group b inside next ihInside ih =>
    have brackets := joinsName_bracket b
    rw [chars, List.cons_append, enclosingBehind_char brackets.1, List.append_assoc, List.cons_append,
      ihInside formed.1 (fun _ => unjoined_concat brackets.1 front) (ends_closing b _),
      enclosingBehind_char brackets.2, ih formed.2 (fun _ => unjoined_concat brackets.2 _) ends]
    simp [enclosing, Nat.add_assoc]
  | literal q t next ih =>
    have literal := closed q t formed.1
    have whole : (Code.literal q t next).chars ++ rest = (q :: (t ++ [q])) ++ (next.chars ++ rest) := by simp [chars]
    have ended : (front ++ q :: (t ++ [q])).getLast?.any joinsName = false := by
      rw [← List.cons_append, ← List.append_assoc]
      exact unjoined_concat (joinsName_quote literal.quote) _
    rw [whole, enclosingBehind_silent (silent_literal isName_mergeName literal.quote (quiet q t formed.1) _ _),
      ih formed.2 (fun _ => ended) ends]
    simp [enclosing, chars, Nat.add_assoc]
  | mark c next ih =>
    rw [chars, List.cons_append, enclosingBehind_char formed.1,
      ih formed.2.2 (fun _ => unjoined_concat formed.1 front) ends]
    simp [enclosing]

/-- The search finds the innermost merging call of the code. -/
theorem enclosingMerge?_chars (closed : ∀ q t, P q t → Closed q t)
    (quiet : ∀ q t, P q t → findCall? mergeName t 0 = none) (formed : e.Formed P) (span : Span) :
    enclosingMerge? e.chars span = e.enclosing span 0 none := by
  have starts : e.startsName = true → ([] : List Char).getLast?.any joinsName = false := fun _ => rfl
  have whole : enclosingBehind span [] (e.chars ++ []) none = _ :=
    enclosingBehind_chars closed quiet formed starts ends_nil
  rw [List.append_nil] at whole
  rw [enclosingMerge?_eq, whole, enclosingBehind_nil]
  rfl

end Code

end Recast.ClassExpr
