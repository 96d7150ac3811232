import Recast.Proofs.ClassExpr.Adapted
import Recast.Proofs.Loop

/-!
# The spans of resolved calls

Variant calls are resolved one after the other in a text that changes on the way, and the calls that lost the
class are noted by their places. A text is cut here into the calls that are resolved and what stays between
them, which gives those places: they stand behind one another in the resolved text, one for each such call.
Passing the class on changes nothing in front of the call it is passed on for. So from the last call to the
first, each one still stands where it was noted when its turn comes.
-/

set_option autoImplicit false

namespace Recast.ClassExpr

open Recast.Text

def Span.text (s : Span) (code : List Char) : List Char := (code.take s.stop).drop s.start

/-! ## The loop that resolves calls -/

/-- The place to search from, the text as it is so far, and the spans that are noted so far. -/
structure Resolving where
  position : Nat
  code : List Char
  spans : List Span

/-- The next call is resolved, or passed over if it takes no object. -/
def Resolving.turn (name space : List Char) (s : Resolving) : Option Resolving :=
  (findCall? name s.code s.position).bind fun start =>
    (closeOf? s.code (openAfter s.code start)).map fun closeAt =>
      match objectBody? ((s.code.take closeAt).drop (openAfter s.code start + 1)) with
      | none => { s with position := closeAt }
      | some body =>
        let call := resolvedCall name space body
        let stop := start + call.1.length
        { position := stop
          code := s.code.take start ++ call.1 ++ s.code.drop (closeAt + 1)
          spans := if call.2 then s.spans ++ [⟨start, stop⟩] else s.spans }

section Resolving

variable {name space : List Char}

/-- The text may grow, but less of it is left behind the place to search from. -/
theorem Resolving.turn_smaller (s t : Resolving) (next : s.turn name space = some t) :
    t.code.length - t.position < s.code.length - s.position := by
  obtain ⟨start, found, next⟩ := Option.bind_eq_some_iff.mp next
  obtain ⟨closeAt, closed, rfl⟩ := Option.map_eq_some_iff.mp next
  obtain ⟨behind, -⟩ := findCall?_bounds found
  obtain ⟨ordered, inside⟩ := closeOf?_bounds closed
  split
  · dsimp only
    omega
  · rename_i body _
    have taken : (s.code.take start).length = start := List.length_take_of_le (by omega)
    simp only [List.length_append, taken, List.length_drop]
    omega

/-- A bound on the number of turns that is not reached does not matter. -/
theorem resolveCallsFrom_of_ends {n : Nat} {s final : Resolving} (run : Ends (Resolving.turn name space) n s final)
    {bound : Nat} (enough : n < bound) :
    ∃ spans, resolveCallsFrom name space bound s.position s.code = (final.code, spans) ∧
      final.spans = s.spans ++ spans := by
  induction run generalizing bound with
  | @here s last =>
    obtain ⟨bound, rfl⟩ := Nat.exists_eq_succ_of_ne_zero (Nat.ne_zero_of_lt enough)
    refine ⟨[], ?_, (List.append_nil _).symm⟩
    rw [resolveCallsFrom]
    rw [Resolving.turn] at last
    cases found : findCall? name s.code s.position with
    | none => rfl
    | some start =>
      rw [found, Option.bind_some, Option.map_eq_none_iff] at last
      dsimp only
      rw [last]
  | @later n s t final next rest ih =>
    obtain ⟨bound, rfl⟩ := Nat.exists_eq_succ_of_ne_zero (Nat.ne_zero_of_lt enough)
    obtain ⟨start, found, next⟩ := Option.bind_eq_some_iff.mp next
    obtain ⟨closeAt, closed, rfl⟩ := Option.map_eq_some_iff.mp next
    obtain ⟨spans, resolved, noted⟩ := ih (show n < bound by omega)
    rw [resolveCallsFrom, found]
    dsimp only
    rw [closed]
    dsimp only
    cases object : objectBody? ((s.code.take closeAt).drop (openAfter s.code start + 1)) with
    | none =>
      rw [object] at resolved noted
      exact ⟨spans, resolved, noted⟩
    | some body =>
      rw [object] at resolved noted
      dsimp only at resolved noted ⊢
      rw [resolved]
      cases dropped : (resolvedCall name space body).2 with
      | false =>
        rw [dropped] at noted
        exact ⟨spans, rfl, noted⟩
      | true =>
        rw [dropped] at noted
        exact ⟨_, rfl, by rw [noted, if_pos rfl, List.append_assoc]; rfl⟩

/-- Resolving all calls is what the loop does. -/
theorem exists_ends_resolveCalls (name space code : List Char) :
    ∃ turns ≤ code.length, ∃ position, Ends (Resolving.turn name space) turns ⟨0, code, []⟩
      ⟨position, (resolveCalls name space code).1, (resolveCalls name space code).2⟩ := by
  obtain ⟨turns, short, final, run⟩ :=
    Ends.exists_of_measure (fun s : Resolving => s.code.length - s.position) Resolving.turn_smaller ⟨0, code, []⟩
  obtain ⟨spans, resolved, noted⟩ := resolveCallsFrom_of_ends run (Nat.lt_succ_of_le short)
  rw [List.nil_append] at noted
  have same : resolveCalls name space code = (final.code, final.spans) := by rw [noted]; exact resolved
  rw [same]
  exact ⟨turns, short, final.position, run⟩

end Resolving

/-! ## Calls in a text -/

/-- A call as it stands in a text: what is between it and the call in front of it, what it opens with, and what
it takes. -/
structure CallSite where
  gap : List Char
  opening : List Char
  inside : List Char

namespace CallSite

def source (c : CallSite) : List Char := c.opening ++ '(' :: (c.inside ++ [')'])

/-- The call in its resolved form, and whether it lost the class. -/
def resolved (name space : List Char) (c : CallSite) : List Char × Bool :=
  resolvedCall name space ((objectBody? c.inside).getD [])

/-- The call is one of a name that joins nothing in front of it, and its parenthesis closes where it ends. -/
structure Calls (name : List Char) (previous : Option Char) (c : CallSite) (later : List Char) : Prop where
  apart : (lastOr previous c.gap).any joinsName = false
  starts : startsCall name (c.source ++ later) = true
  first : '(' ∉ c.opening
  closes : upToClose? 0 none (c.inside ++ ')' :: later) = some c.inside

end CallSite

def sourceText : List CallSite → List Char → List Char
  | [], rest => rest
  | c :: cs, rest => c.gap ++ (c.source ++ sourceText cs rest)

/-- Each of the calls takes an object. -/
def AreCalls (name : List Char) : Option Char → List CallSite → List Char → Prop
  | _, [], _ => True
  | previous, c :: cs, rest =>
    c.Calls name previous (sourceText cs rest) ∧ (objectBody? c.inside).isSome = true ∧
      AreCalls name (some ')') cs rest

section Text

variable (name space : List Char)

def resolvedText : List CallSite → List Char → List Char
  | [], rest => rest
  | c :: cs, rest => c.gap ++ ((c.resolved name space).1 ++ resolvedText cs rest)

/-- The places at which the calls that lost the class stand in the resolved text. -/
def droppedSpans : Nat → List CallSite → List Span
  | _, [] => []
  | i, c :: cs =>
    let start := i + c.gap.length
    let stop := start + (c.resolved name space).1.length
    if (c.resolved name space).2 then ⟨start, stop⟩ :: droppedSpans stop cs else droppedSpans stop cs

end Text

section Turn

variable {name space front back : List Char} {spans : List Span} {t : Resolving}

theorem resolvedCall_eq (name space body : List Char) :
    ∃ args, (resolvedCall name space body).1 = name ++ '(' :: args ++ [')'] := by
  rw [resolvedCall]
  dsimp only
  split
  · exact ⟨[], by simp⟩
  · generalize joinChars ", ".toList _ = entries
    exact ⟨"\x7b ".toList ++ entries ++ " \x7d".toList, by simp⟩

/-- What is found in a text is a call behind some of it. -/
theorem exists_site {start closeAt : Nat} (found : findCall? name (front ++ back) front.length = some start)
    (closed : closeOf? (front ++ back) (openAfter (front ++ back) start) = some closeAt) :
    ∃ (c : CallSite) (later : List Char), back = c.gap ++ (c.source ++ later) ∧ c.Calls name front.getLast? later ∧
      start = (front ++ c.gap).length ∧
      openAfter (front ++ back) start = (front ++ c.gap ++ c.opening).length ∧
      closeAt = (front ++ c.gap ++ c.opening ++ ['('] ++ c.inside).length := by
  rw [findCall?_append] at found
  obtain ⟨gap, behind, rfl, rfl, starts, apart⟩ := findCallIn?_eq_some found
  have opens : '(' ∈ behind := by
    obtain ⟨blanks, more, rfl, -⟩ := startsCall_iff.mp starts
    simp
  obtain ⟨opening, tail, rfl, first⟩ := List.eq_append_cons_of_mem opens
  have openAt : openAfter (front ++ (gap ++ (opening ++ '(' :: tail))) (front.length + gap.length) =
      (front ++ gap ++ opening).length := by
    rw [← List.append_assoc, ← List.length_append, openAfter_append first]
    simp only [List.length_append]
  rw [openAt] at closed
  obtain ⟨inside, reached, rfl⟩ := Option.map_eq_some_iff.mp closed
  have whole : front ++ (gap ++ (opening ++ '(' :: tail)) = (front ++ gap ++ opening ++ ['(']) ++ tail := by simp
  have opened : (front ++ gap ++ opening).length + 1 = (front ++ gap ++ opening ++ ['(']).length := by
    simp only [List.length_append, List.length_cons, List.length_nil]
  rw [whole, opened, List.drop_left] at reached
  obtain ⟨later, rfl⟩ := upToClose?_eq_some reached
  refine ⟨⟨gap, opening, inside⟩, later, by simp [CallSite.source], ⟨apart, ?_, first, reached⟩, ?_, openAt, ?_⟩
  · simpa [CallSite.source] using starts
  · exact List.length_append.symm
  · simp only [List.length_append, List.length_cons, List.length_nil]

/-- A turn finds the next call. It goes on with the end of the call if that takes no object, and behind the
resolved call otherwise. -/
theorem Resolving.turn_cases (next : Resolving.turn name space ⟨front.length, front ++ back, spans⟩ = some t) :
    ∃ (c : CallSite) (later : List Char), back = c.gap ++ (c.source ++ later) ∧ c.Calls name front.getLast? later ∧
      (objectBody? c.inside = none ∧
          t = ⟨(front ++ (c.gap ++ (c.opening ++ '(' :: c.inside))).length, front ++ back, spans⟩ ∨
        ∃ body, objectBody? c.inside = some body ∧
          t = ⟨(front ++ (c.gap ++ (resolvedCall name space body).1)).length,
            front ++ (c.gap ++ (resolvedCall name space body).1) ++ later,
            if (resolvedCall name space body).2 then
              spans ++ [⟨front.length + c.gap.length,
                front.length + c.gap.length + (resolvedCall name space body).1.length⟩]
            else spans⟩) := by
  obtain ⟨start, found, next⟩ := Option.bind_eq_some_iff.mp next
  obtain ⟨closeAt, closed, rfl⟩ := Option.map_eq_some_iff.mp next
  obtain ⟨c, later, rfl, calls, rfl, openAt, rfl⟩ := exists_site found closed
  refine ⟨c, later, rfl, calls, ?_⟩
  have whole : front ++ (c.gap ++ (c.source ++ later)) =
      (front ++ c.gap ++ c.opening ++ ['(']) ++ (c.inside ++ (')' :: later)) := by simp [CallSite.source]
  have opened : (front ++ c.gap ++ c.opening).length + 1 = (front ++ c.gap ++ c.opening ++ ['(']).length := by
    simp only [List.length_append, List.length_cons, List.length_nil]
  have taken : ((front ++ (c.gap ++ (c.source ++ later))).take
      (front ++ c.gap ++ c.opening ++ ['('] ++ c.inside).length).drop ((front ++ c.gap ++ c.opening).length + 1) =
        c.inside := by
    rw [whole, ← List.append_assoc _ c.inside, List.take_left, opened, List.drop_left]
  have left : (front ++ (c.gap ++ (c.source ++ later))).take (front ++ c.gap).length = front ++ c.gap := by
    rw [← List.append_assoc, List.take_left]
  have right : (front ++ (c.gap ++ (c.source ++ later))).drop
      ((front ++ c.gap ++ c.opening ++ ['('] ++ c.inside).length + 1) = later := by
    have closed : (front ++ c.gap ++ c.opening ++ ['('] ++ c.inside).length + 1 =
        (front ++ c.gap ++ c.opening ++ ['('] ++ c.inside ++ [')']).length := by
      simp only [List.length_append, List.length_cons, List.length_nil]
    have beyond : front ++ (c.gap ++ (c.source ++ later)) =
        (front ++ c.gap ++ c.opening ++ ['('] ++ c.inside ++ [')']) ++ later := by simp [CallSite.source]
    rw [closed, beyond, List.drop_left]
  dsimp only
  rw [openAt, taken, left, right]
  cases objectBody? c.inside with
  | none => exact .inl ⟨rfl, by simp⟩
  | some body => exact .inr ⟨body, rfl, by simp [Nat.add_assoc]⟩

end Turn

/-! ## The calls that the loop resolves -/

section Calls

variable {name space : List Char}

/-- Text in front of the calls belongs to the gap in front of the first of them. -/
theorem exists_calls_behind (skipped : List Char) (cs : List CallSite) (rest : List Char) (previous : Option Char)
    (areCalls : AreCalls name (lastOr previous skipped) cs rest) :
    ∃ cs' rest', skipped ++ sourceText cs rest = sourceText cs' rest' ∧ AreCalls name previous cs' rest' ∧
      skipped ++ resolvedText name space cs rest = resolvedText name space cs' rest' ∧
      ∀ i, droppedSpans name space (i + skipped.length) cs = droppedSpans name space i cs' := by
  cases cs with
  | nil => exact ⟨[], skipped ++ rest, rfl, trivial, rfl, fun _ => rfl⟩
  | cons c cs =>
    obtain ⟨calls, object, more⟩ := areCalls
    have last : lastOr previous (skipped ++ c.gap) = lastOr (lastOr previous skipped) c.gap := by
      rw [lastOr, lastOr, lastOr, List.getLast?_append, Option.or_assoc]
    refine ⟨{ c with gap := skipped ++ c.gap } :: cs, rest, (List.append_assoc _ _ _).symm,
      ⟨⟨?_, calls.starts, calls.first, calls.closes⟩, object, more⟩, (List.append_assoc _ _ _).symm, fun i => ?_⟩
    · rw [last]
      exact calls.apart
    · simp only [droppedSpans, List.length_append, Nat.add_assoc]
      rfl

/-- A run of the loop resolves calls of the text behind the place from which it starts. -/
theorem exists_calls_of_ends {n : Nat} {s final : Resolving} (run : Ends (Resolving.turn name space) n s final)
    {front back : List Char} (code : s.code = front ++ back) (position : s.position = front.length) :
    ∃ cs rest, back = sourceText cs rest ∧ AreCalls name front.getLast? cs rest ∧
      final.code = front ++ resolvedText name space cs rest ∧
      final.spans = s.spans ++ droppedSpans name space front.length cs := by
  induction run generalizing front back with
  | here last => exact ⟨[], back, rfl, trivial, code, (List.append_nil _).symm⟩
  | @later n s t final next more ih =>
    obtain ⟨_, _, spans⟩ := s
    obtain rfl : _ = front.length := position
    obtain rfl : _ = front ++ back := code
    obtain ⟨c, later, rfl, calls, ⟨noObject, rfl⟩ | ⟨body, object, rfl⟩⟩ := Resolving.turn_cases next
    · -- the call stays, and the search goes on at its last parenthesis
      have split : front ++ (c.gap ++ (c.source ++ later)) =
          front ++ (c.gap ++ (c.opening ++ '(' :: c.inside)) ++ ')' :: later := by simp [CallSite.source]
      obtain ⟨cs, rest, source, areCalls, result, noted⟩ := ih split rfl
      rw [List.getLast?_append] at areCalls
      obtain ⟨cs', rest', source', areCalls', result', noted'⟩ :=
        @exists_calls_behind name space (c.gap ++ (c.opening ++ '(' :: c.inside)) cs rest front.getLast? areCalls
      refine ⟨cs', rest', ?_, areCalls', ?_, ?_⟩
      · rw [← source', ← source]
        simp [CallSite.source]
      · rw [result, List.append_assoc, result']
      · rw [noted, List.length_append, noted']
    · -- the call is resolved, and the search goes on behind it
      obtain ⟨cs, rest, rfl, areCalls, result, noted⟩ := ih rfl rfl
      obtain ⟨args, shape⟩ := resolvedCall_eq name space body
      have resolved : c.resolved name space = resolvedCall name space body := by
        rw [CallSite.resolved, object, Option.getD_some]
      have last : (front ++ (c.gap ++ (resolvedCall name space body).1)).getLast? = some ')' := by
        rw [shape, ← List.append_assoc, ← List.append_assoc, List.getLast?_concat]
      rw [last] at areCalls
      refine ⟨c :: cs, rest, rfl, ⟨calls, by rw [object]; rfl, areCalls⟩, ?_, ?_⟩
      · rw [result, resolvedText, resolved]
        simp only [List.append_assoc]
      · rw [noted, droppedSpans, resolved]
        simp only [List.length_append, Nat.add_assoc]
        split <;> simp

end Calls

/-! ## Where the resolved calls stand -/

section Spans

variable {name space : List Char}

theorem length_resolved_pos (c : CallSite) : 0 < (c.resolved name space).1.length := by
  obtain ⟨args, shape⟩ := resolvedCall_eq name space ((objectBody? c.inside).getD [])
  rw [CallSite.resolved, shape]
  simp only [List.length_append, List.length_cons]
  omega

theorem droppedSpans_within {s : Span} (rest : List Char) {i : Nat} {cs : List CallSite}
    (noted : s ∈ droppedSpans name space i cs) :
    i ≤ s.start ∧ s.start < s.stop ∧ s.stop ≤ i + (resolvedText name space cs rest).length := by
  induction cs generalizing i with
  | nil => cases noted
  | cons c cs ih =>
    have nonempty := @length_resolved_pos name space c
    simp only [resolvedText, List.length_append]
    have later : s ∈ droppedSpans name space (i + c.gap.length + (c.resolved name space).1.length) cs → _ := ih
    rw [droppedSpans] at noted
    split at noted
    · rcases List.mem_cons.mp noted with rfl | more
      · dsimp only
        omega
      · have := later more
        omega
    · have := later noted
      omega

theorem droppedSpans_ordered (i : Nat) (cs : List CallSite) :
    (droppedSpans name space i cs).Pairwise fun s t => s.stop ≤ t.start := by
  induction cs generalizing i with
  | nil => exact .nil
  | cons c cs ih =>
    rw [droppedSpans]
    split
    · exact .cons (fun t member => (droppedSpans_within [] member).1) (ih _)
    · exact ih _

/-- The spans stand for the calls that lost the class, one for each. -/
theorem droppedSpans_text (front : List Char) (cs : List CallSite) (rest : List Char) :
    List.Forall₂ (fun s c => s.text (front ++ resolvedText name space cs rest) = (c.resolved name space).1)
      (droppedSpans name space front.length cs) (cs.filter fun c => (c.resolved name space).2) := by
  induction cs generalizing front with
  | nil => exact .nil
  | cons c cs ih =>
    have more := ih (front ++ (c.gap ++ (c.resolved name space).1))
    rw [List.append_assoc, List.append_assoc, List.length_append, List.length_append, ← Nat.add_assoc] at more
    rw [droppedSpans, resolvedText]
    by_cases lost : (c.resolved name space).2 = true
    · rw [if_pos lost, List.filter_cons, if_pos lost]
      refine .cons ?_ more
      have stop : front.length + c.gap.length + (c.resolved name space).1.length =
          (front ++ c.gap ++ (c.resolved name space).1).length := by simp only [List.length_append]
      have whole : front ++ (c.gap ++ ((c.resolved name space).1 ++ resolvedText name space cs rest)) =
          (front ++ c.gap ++ (c.resolved name space).1) ++ resolvedText name space cs rest := by simp
      rw [Span.text, stop, whole, List.take_left, ← List.length_append, List.drop_left]
    · rw [if_neg lost, List.filter_cons, if_neg lost]
      exact more

end Spans

/-! ## The loop that looks for the merging call -/

/-- The place to search from, and the innermost merging call that is found so far. -/
structure Enclosing where
  position : Nat
  best : Option (Nat × Nat)

/-- The next merging call is tried, unless it starts behind the start of the span. -/
def Enclosing.turn (code : List Char) (span : Span) (s : Enclosing) : Option Enclosing :=
  (findCall? mergeName code s.position).bind fun call =>
    if span.start < call then none
    else
      some {
        position := openAfter code call + 1
        best :=
          match closeOf? code (openAfter code call) with
          | some closeAt => if span.stop ≤ closeAt then some (openAfter code call, closeAt) else s.best
          | none => s.best }

section Enclosing

variable {code : List Char} {span : Span}

theorem Enclosing.turn_eq_some {s t : Enclosing} (next : s.turn code span = some t) :
    ∃ call, findCall? mergeName code s.position = some call ∧ ¬span.start < call ∧
      t.position = openAfter code call + 1 ∧
      t.best =
        match closeOf? code (openAfter code call) with
        | some closeAt => if span.stop ≤ closeAt then some (openAfter code call, closeAt) else s.best
        | none => s.best := by
  obtain ⟨call, found, next⟩ := Option.bind_eq_some_iff.mp next
  by_cases passed : span.start < call
  · rw [if_pos passed] at next
    cases next
  · rw [if_neg passed] at next
    obtain rfl := Option.some.inj next
    exact ⟨call, found, passed, rfl, rfl⟩

theorem Enclosing.turn_smaller (s t : Enclosing) (next : s.turn code span = some t) :
    code.length - t.position < code.length - s.position := by
  obtain ⟨call, found, -, position, -⟩ := turn_eq_some next
  obtain ⟨behind, within⟩ := findCall?_bounds found
  have opens : call ≤ openAfter code call := Nat.le_add_right _ _
  omega

theorem enclosingMergeFrom_of_ends {n : Nat} {s final : Enclosing} (run : Ends (Enclosing.turn code span) n s final)
    {bound : Nat} (enough : n < bound) : enclosingMergeFrom code span bound s.position s.best = final.best := by
  induction run generalizing bound with
  | @here s last =>
    obtain ⟨bound, rfl⟩ := Nat.exists_eq_succ_of_ne_zero (Nat.ne_zero_of_lt enough)
    rw [enclosingMergeFrom]
    rw [Enclosing.turn] at last
    cases found : findCall? mergeName code s.position with
    | none => rfl
    | some call =>
      rw [found, Option.bind_some] at last
      dsimp only
      by_cases passed : span.start < call
      · rw [if_pos passed]
      · rw [if_neg passed] at last
        cases last
  | @later n s t final next rest ih =>
    obtain ⟨bound, rfl⟩ := Nat.exists_eq_succ_of_ne_zero (Nat.ne_zero_of_lt enough)
    obtain ⟨call, found, passed, position, best⟩ := Enclosing.turn_eq_some next
    rw [enclosingMergeFrom, found]
    dsimp only
    rw [if_neg passed]
    have rest := ih (show n < bound by omega)
    rw [position, best] at rest
    exact rest

/-- Looking for the merging call around a span is what the loop does. -/
theorem exists_ends_enclosingMerge? (code : List Char) (span : Span) :
    ∃ turns ≤ code.length, ∃ position,
      Ends (Enclosing.turn code span) turns ⟨0, none⟩ ⟨position, enclosingMerge? code span⟩ := by
  obtain ⟨turns, short, final, run⟩ :=
    Ends.exists_of_measure (fun s : Enclosing => code.length - s.position) Enclosing.turn_smaller ⟨0, none⟩
  have same : enclosingMerge? code span = final.best := enclosingMergeFrom_of_ends run (Nat.lt_succ_of_le short)
  rw [same]
  exact ⟨turns, short, final.position, run⟩

/-- The merging call ends behind the span. -/
theorem enclosingMerge?_bounds {openAt closeAt : Nat} (found : enclosingMerge? code span = some (openAt, closeAt)) :
    span.stop ≤ closeAt ∧ closeAt < code.length := by
  obtain ⟨turns, -, position, run⟩ := exists_ends_enclosingMerge? code span
  have step : ∀ s t : Enclosing, (∀ b ∈ s.best, span.stop ≤ b.2 ∧ b.2 < code.length) → s.turn code span = some t →
      ∀ b ∈ t.best, span.stop ≤ b.2 ∧ b.2 < code.length := by
    intro s t kept next b isBest
    obtain ⟨call, found, -, -, best⟩ := Enclosing.turn_eq_some next
    rw [best] at isBest
    split at isBest
    · rename_i closeAt closed
      obtain ⟨-, within⟩ := closeOf?_bounds closed
      split at isBest
      · rename_i around
        obtain rfl := Option.mem_some_iff.mp isBest
        exact ⟨around, within⟩
      · exact kept b isBest
    · exact kept b isBest
  exact run.keeps step (by simp) (openAt, closeAt) found

end Enclosing

/-! ## From the last call to the first -/

section Passing

variable {code classRef : List Char}

/-- Passing the class on keeps the text in front of the span. -/
theorem take_appendClass {span : Span} (ordered : span.start ≤ span.stop) (within : span.start ≤ code.length)
    {k : Nat} (before : k ≤ span.start) : (appendClass code span classRef).take k = code.take k := by
  rw [appendClass]
  cases found : enclosingMerge? code span with
  | none =>
    have taken : k ≤ (code.take span.start).length := by rw [List.length_take_of_le within]; exact before
    simp only [List.append_assoc]
    rw [List.take_append_of_le_length taken, List.take_take, Nat.min_eq_left before]
  | some enclosing =>
    obtain ⟨openAt, closeAt⟩ := enclosing
    obtain ⟨behind, inside⟩ := enclosingMerge?_bounds found
    dsimp only
    split
    · rfl
    · have taken : k ≤ (code.take closeAt).length := by
        rw [List.length_take_of_le (Nat.le_of_lt inside)]
        omega
      simp only [List.append_assoc]
      rw [List.take_append_of_le_length taken, List.take_take, Nat.min_eq_left (by omega)]

/-- Passing the class on for all spans behind a place keeps the text in front of it. -/
theorem take_foldr_appendClass {spans : List Span} (apart : spans.Pairwise fun s t => s.stop ≤ t.start)
    (within : ∀ s ∈ spans, s.start < s.stop ∧ s.stop ≤ code.length) {k : Nat} (before : ∀ s ∈ spans, k ≤ s.start) :
    (spans.foldr (fun span text => appendClass text span classRef) code).take k = code.take k := by
  induction spans generalizing k with
  | nil => rfl
  | cons s spans ih =>
    obtain ⟨first, apart⟩ := List.pairwise_cons.mp apart
    obtain ⟨ordered, inside⟩ := within s (by simp)
    have kept := fun (k : Nat) (before : ∀ t ∈ spans, k ≤ t.start) =>
      ih apart (fun t member => within t (by simp [member])) before
    rw [List.foldr_cons]
    generalize spans.foldr (fun span text => appendClass text span classRef) code = text at kept
    -- the text in front of the later spans is long enough to hold this one
    have long : s.stop ≤ text.length := by
      have lengths := congrArg List.length (kept s.stop first)
      rw [List.length_take, List.length_take] at lengths
      omega
    have here := before s (by simp)
    rw [take_appendClass (by omega) (by omega) here]
    exact kept k fun t member => by
      have := first t member
      omega

end Passing

/-! ## All spans -/

/-- The spans of a resolved text are in it, each behind those in front of it. They stand for the calls of the
text that lost the class, one for each call. When the class is passed on from the last span to the first, the
text at a span is still the one that it was noted for. -/
structure SpansHold (name space code result : List Char) (spans : List Span) : Prop where
  within : ∀ s ∈ spans, s.start < s.stop ∧ s.stop ≤ result.length
  ordered : spans.Pairwise fun s t => s.start < t.start ∧ s.stop ≤ t.start
  calls : ∃ cs rest, code = sourceText cs rest ∧ AreCalls name none cs rest ∧
    result = resolvedText name space cs rest ∧ spans = droppedSpans name space 0 cs ∧
    List.Forall₂ (fun s c => s.text result = (c.resolved name space).1) spans
      (cs.filter fun c => (c.resolved name space).2)
  kept : ∀ classRef earlier (s : Span) later, spans = earlier ++ s :: later →
    s.text (later.reverse.foldl (fun text span => appendClass text span classRef) result) = s.text result

theorem spansHold_resolveCalls (name space code : List Char) :
    SpansHold name space code (resolveCalls name space code).1 (resolveCalls name space code).2 := by
  obtain ⟨turns, -, position, run⟩ := exists_ends_resolveCalls name space code
  obtain ⟨cs, rest, source, areCalls, result, spans⟩ := exists_calls_of_ends run (List.nil_append code).symm rfl
  dsimp only at result spans
  rw [List.nil_append] at result spans
  generalize (resolveCalls name space code).1 = text at result ⊢
  generalize (resolveCalls name space code).2 = noted at spans ⊢
  have within : ∀ s ∈ noted, s.start < s.stop ∧ s.stop ≤ text.length := by
    intro s member
    rw [spans] at member
    obtain ⟨-, ordered, inside⟩ := droppedSpans_within rest member
    rw [result]
    exact ⟨ordered, by simpa using inside⟩
  have apart : noted.Pairwise fun s t => s.stop ≤ t.start := by
    rw [spans]
    exact droppedSpans_ordered _ cs
  refine ⟨within, ?_, ⟨cs, rest, source, areCalls, result, spans, ?_⟩, fun classRef earlier s later split => ?_⟩
  · refine apart.imp_of_mem fun {s t} member _ behind => ⟨?_, behind⟩
    have := within s member
    omega
  · rw [spans, result]
    exact droppedSpans_text [] cs rest
  · rw [split] at apart within
    have tail := List.pairwise_cons.mp (List.pairwise_append.mp apart).2.1
    rw [List.foldl_reverse, Span.text, Span.text,
      take_foldr_appendClass tail.2 (fun t member => within t (by simp [member])) tail.1]

/-- Both loops of adapting an expression end, the one that resolves variant calls and the one that looks for the
merging call around a span. The spans that are noted hold, and the class is passed on from the last of them to
the first. -/
theorem adapt_spans_hold {variant : String} (named : variant ≠ "") :
    (∀ space code, ∃ turns ≤ code.length, ∃ position,
      Ends (Resolving.turn variant.toList space) turns ⟨0, code, []⟩
        ⟨position, (resolveCalls variant.toList space code).1, (resolveCalls variant.toList space code).2⟩) ∧
    (∀ code span, ∃ turns ≤ code.length, ∃ position,
      Ends (Enclosing.turn code span) turns ⟨0, none⟩ ⟨position, enclosingMerge? code span⟩) ∧
    (∀ space code, SpansHold variant.toList space code (resolveCalls variant.toList space code).1
      (resolveCalls variant.toList space code).2) ∧
    ∀ expression target,
      let resolved := resolveCalls variant.toList (propsSpace target)
        (withoutAccess target (stripChars expression.toList))
      adapt expression target (some variant) =
        String.ofList (finished target
          (resolved.2.reverse.foldl (fun text span => appendClass text span "className".toList) resolved.1)) :=
  ⟨exists_ends_resolveCalls variant.toList, exists_ends_enclosingMerge?, spansHold_resolveCalls variant.toList,
    adapt_eq named⟩

/-- One call stands in a merging call and grows, and one stands by itself and gets shorter. -/
def twoCalls : String := "cn(\"a\", box(\x7b size, className \x7d)) + box(\x7b className: c \x7d)"

theorem adapt_spans_hold_two :
    SpansHold "box".toList "props.".toList twoCalls.toList
      "cn(\"a\", box(\x7b size: props.size \x7d)) + box()".toList [⟨8, 33⟩, ⟨37, 42⟩] ∧
    adapt twoCalls .vue (some "box") =
      "cn('a', box(\x7b size: props.size \x7d), props.class) + cn(box(), props.class)" := by
  obtain ⟨-, -, hold, adapted⟩ := @adapt_spans_hold "box" (by decide)
  have resolved : resolveCalls "box".toList "props.".toList twoCalls.toList =
      ("cn(\"a\", box(\x7b size: props.size \x7d)) + box()".toList, [⟨8, 33⟩, ⟨37, 42⟩]) := by decide +kernel
  refine ⟨?_, (adapted twoCalls .vue).trans (by decide +kernel)⟩
  have both := hold "props.".toList twoCalls.toList
  rwa [resolved] at both

end Recast.ClassExpr
