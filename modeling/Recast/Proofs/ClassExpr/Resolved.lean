import Recast.Proofs.ClassExpr.Entry

/-!
# Resolved variant calls

Resolving goes over code from left to right. A variant call that takes one object literal is rewritten, and
whatever else it takes is left alone, with the calls in it. The spans of the calls that lost a class entry
are places in the rewritten text.
-/

set_option autoImplicit false

namespace Recast.ClassExpr

open Recast.Text

namespace Code

/-- The object literal that is all of an argument list. -/
def object? (e : Code) : Option Code :=
  match e.trim with
  | group .curly body done => some body
  | _ => none

def isClassEntry (entry : Code) : Bool := isClassArgument entry.keyAndValue.1

/-- The entries of an object that stay. -/
def kept (body : Code) : List Code := body.arguments.filter fun entry => !entry.isClassEntry

def dropsClass (body : Code) : Bool := body.arguments.any isClassEntry

/-- What a resolved variant call takes. -/
def variantInside (space : List Char) (body : Code) : Code :=
  match body.kept.map (resolvedEntry space) with
  | [] => done
  | entry :: entries => group .curly (mark ' ' ((list (entry :: entries)).append (mark ' ' done))) done

/-- Code with its variant calls resolved. -/
def resolved (name space : List Char) : Code → Code
  | done => done
  | word t rest => word t (rest.resolved name space)
  | call t gap inside rest =>
    if t = name then
      match inside.object? with
      | some body => call name [] (body.variantInside space) (rest.resolved name space)
      | none => call t gap inside (rest.resolved name space)
    else call t gap (inside.resolved name space) (rest.resolved name space)
  | group b inside rest => group b (inside.resolved name space) (rest.resolved name space)
  | literal q contents rest => literal q contents (rest.resolved name space)
  | mark c rest => mark c (rest.resolved name space)

/-- The spans of the resolved calls that lost a class entry, in code that starts at a place. -/
def dropped (name space : List Char) : Nat → Code → List Span
  | _, done => []
  | i, word t rest => rest.dropped name space (i + t.length)
  | i, call t gap inside rest =>
    if t = name then
      match inside.object? with
      | some body =>
        let stop := i + (callText name [] (body.variantInside space).chars).length
        if body.dropsClass then ⟨i, stop⟩ :: rest.dropped name space stop else rest.dropped name space stop
      | none => rest.dropped name space (i + t.length + gap.length + (inside.chars.length + 2))
    else
      inside.dropped name space (i + t.length + gap.length + 1) ++
        rest.dropped name space (i + t.length + gap.length + ((inside.resolved name space).chars.length + 2))
  | i, group _ inside rest =>
    inside.dropped name space (i + 1) ++
      rest.dropped name space (i + ((inside.resolved name space).chars.length + 2))
  | i, literal _ contents rest => rest.dropped name space (i + (contents.length + 2))
  | i, mark _ rest => rest.dropped name space (i + 1)

/-- Each variant call takes something that is not an object literal and does not look like one, or one whose
entries are keyed. -/
def Objects (name : List Char) : Code → Prop
  | done => True
  | word _ rest => rest.Objects name
  | call t _ inside rest =>
    (if t = name then
      match inside.object? with
      | some body => ∀ entry ∈ body.arguments, entry.Keyed
      | none => objectBody? inside.chars = none
    else inside.Objects name) ∧ rest.Objects name
  | group _ inside rest => inside.Objects name ∧ rest.Objects name
  | literal _ _ rest => rest.Objects name
  | mark _ rest => rest.Objects name

instance decidableObjects (name : List Char) : (e : Code) → Decidable (e.Objects name)
  | done => .isTrue trivial
  | word _ rest => decidableObjects name rest
  | call t _ inside rest =>
    have := decidableObjects name inside
    have := decidableObjects name rest
    have : Decidable (match inside.object? with
        | some body => ∀ entry ∈ body.arguments, entry.Keyed
        | none => objectBody? inside.chars = none) :=
      match inside.object? with
      | some body => inferInstanceAs (Decidable (∀ entry ∈ body.arguments, entry.Keyed))
      | none => inferInstanceAs (Decidable (objectBody? inside.chars = none))
    inferInstanceAs (Decidable ((if t = name then _ else _) ∧ _))
  | group _ inside rest =>
    have := decidableObjects name inside
    have := decidableObjects name rest
    inferInstanceAs (Decidable (_ ∧ _))
  | literal _ _ rest => decidableObjects name rest
  | mark _ rest => decidableObjects name rest

variable {P : Char → List Char → Prop} {e : Code} {name space : List Char}

/-! ## One call -/

theorem object?_eq_some {body : Code} (h : e.object? = some body) : e.trim = group .curly body done := by
  rw [object?] at h
  split at h
  · rename_i shape
    rw [shape, Option.some.inj h]
  · cases h

theorem objectBody?_of_object? (closed : ∀ q t, P q t → Closed q t) (formed : e.Formed P) {body : Code}
    (h : e.object? = some body) : objectBody? e.chars = some body.chars := by
  have text : stripChars e.chars = '\x7b' :: (body.chars ++ ['\x7d']) := by
    rw [← chars_trim closed formed, object?_eq_some h]
    rfl
  rw [objectBody?, text]
  simp [List.getLast?_cons]

theorem formed_object (formed : e.Formed P) {body : Code} (h : e.object? = some body) : body.Formed P := by
  have whole := formed_trim formed
  rw [object?_eq_some h] at whole
  exact whole.1

theorem formed_variantInside (joined : space.all joinsName = true) {body : Code} (formed : body.Formed P) :
    (body.variantInside space).Formed P := by
  have entries : ∀ entry ∈ body.kept.map (resolvedEntry space), entry.Formed P := by
    intro entry member
    obtain ⟨source, inKept, rfl⟩ := List.mem_map.mp member
    exact formed_resolvedEntry joined (formed_arguments formed _ (List.mem_of_mem_filter inKept))
  rw [variantInside]
  split
  · trivial
  · rename_i entry others shape
    refine ⟨⟨by decide, by decide, ?_⟩, trivial⟩
    exact formed_append (formed_list (shape ▸ entries)) ⟨by decide, by decide, trivial⟩ rfl

theorem stripChars_argument (closed : ∀ q t, P q t → Closed q t) (formed : e.Formed P) :
    ∀ argument ∈ e.arguments, stripChars argument.chars = argument.chars := by
  intro argument member
  obtain ⟨part, source, rfl⟩ := List.mem_map.mp (List.mem_of_mem_filter member)
  rw [chars_trim closed (formed_parts formed part source)]
  exact trimWhile_trimWhile isBlank part.chars

theorem resolvedCall_chars (closed : ∀ q t, P q t → Closed q t) (joined : space.all joinsName = true) {body : Code}
    (formed : body.Formed P) (keyed : ∀ entry ∈ body.arguments, entry.Keyed) :
    resolvedCall name space body.chars =
      (callText name [] (body.variantInside space).chars, body.dropsClass) := by
  have entries : (splitTopLevel ',' body.chars).map argumentParts = body.arguments.map keyAndValue := by
    rw [splitTopLevel_chars closed formed, List.map_map]
    rfl
  have args : ((body.arguments.map keyAndValue).filter fun e => !isClassArgument e.1).map
      (fun e => resolvedArgument space e.1 e.2) = (body.kept.map (resolvedEntry space)).map chars := by
    rw [List.filter_map, List.map_map, List.map_map]
    refine List.map_congr_left fun entry member => ?_
    have source := List.mem_of_mem_filter member
    exact (chars_resolvedEntry closed joined (formed_arguments formed entry source)
      (stripChars_argument closed formed entry source) (keyed entry source)).symm
  rw [resolvedCall, entries, args, List.any_map, variantInside]
  refine Prod.ext ?_ rfl
  cases body.kept.map (resolvedEntry space) with
  | nil => rfl
  | cons entry others =>
    rw [if_neg (by simp), ← chars_list]
    simp [callText, chars, Bracket.opening, Bracket.closing]

/-! ## Resolving code -/

theorem resolveBehind_char (isName : IsName name) {c : Char} (other : joinsName c = false) (front rest : List Char) :
    resolveBehind name space front (c :: rest) = resolveBehind name space (front ++ [c]) rest := by
  have silent : Silent (callRule name) front.getLast? [c] rest :=
    silent_of_not_joinsName isName (by simpa using other) _ _
  exact resolveBehind_silent silent

/-- Behind code the search for variant calls goes on in the resolved text. -/
theorem resolveBehind_chars (closed : ∀ q t, P q t → Closed q t) (quiet : ∀ q t, P q t → findCall? name t 0 = none)
    (isName : IsName name) (joined : space.all joinsName = true) (formed : e.Formed P) (objects : e.Objects name)
    {front rest : List Char} (starts : e.startsName = true → front.getLast?.any joinsName = false) (ends : Ends rest) :
    resolveBehind name space front (e.chars ++ rest) =
      let later := resolveBehind name space (front ++ (e.resolved name space).chars) rest
      (later.1, e.dropped name space front.length ++ later.2) := by
  -- each element moves from the text that is left to the resolved front, so both are generalized
  induction e generalizing front rest with
  | done => simp [chars, resolved, dropped]
  | word t next ih =>
    obtain ⟨isName', apart, behind⟩ := formed
    have noName : next.startsName = true → (front ++ t).getLast?.any joinsName = false := by
      intro starts
      simp [Code.apart, starts] at apart
    rw [chars, List.append_assoc, resolveBehind_silent (silent_word closed isName isName' behind apart ends _),
      ih behind objects noName ends, resolved, chars, dropped, List.length_append, List.append_assoc]
  | call t gap inside next ihInside ih =>
    obtain ⟨isName', blank, within, behind⟩ := formed
    obtain ⟨here, later⟩ := objects
    have call := callBehind closed isName' blank within (starts rfl) (next.chars ++ rest)
    have whole : (Code.call t gap inside next).chars ++ rest = callText t gap inside.chars ++ (next.chars ++ rest) := by
      simp [chars, callText]
    by_cases variant : t = name
    · subst variant
      rw [if_pos rfl] at here
      rw [whole, resolved, dropped, if_pos rfl, if_pos rfl]
      cases object : inside.object? with
      | some body =>
        simp only [object] at here
        have formedBody := formed_object within object
        rw [resolveBehind_call call (objectBody?_of_object? closed within object),
          resolvedCall_chars closed joined formedBody here]
        dsimp only
        rw [ih behind later (fun _ => unjoined_callText front _ _ _) ends]
        split <;> simp [chars, callText]
      | none =>
        simp only [object] at here
        rw [resolveBehind_other call here, resolveBehind_char isName (by decide),
          ih behind later (fun _ => unjoined_concat (by decide) _) ends]
        simp [chars, Nat.add_assoc]
    · rw [if_neg variant] at here
      have opened : callText t gap inside.chars ++ (next.chars ++ rest) =
          (t ++ (gap ++ ['('])) ++ (inside.chars ++ Bracket.round.closing :: (next.chars ++ rest)) := by
        simp [callText, Bracket.closing]
      rw [whole, opened, resolveBehind_silent (silent_call isName isName' blank variant _ _),
        ihInside within here (fun _ => unjoined_opening front _ _) (ends_closing .round _),
        resolveBehind_char isName (by decide), ih behind later (fun _ => unjoined_concat (by decide) _) ends]
      simp [resolved, dropped, variant, chars, Bracket.closing, Nat.add_assoc]
  | group b inside next ihInside ih =>
    have brackets := joinsName_bracket b
    rw [chars, List.cons_append, resolveBehind_char isName brackets.1, List.append_assoc, List.cons_append,
      ihInside formed.1 objects.1 (fun _ => unjoined_concat brackets.1 front) (ends_closing b _),
      resolveBehind_char isName brackets.2, ih formed.2 objects.2 (fun _ => unjoined_concat brackets.2 _) ends]
    simp [resolved, chars, dropped, Nat.add_assoc]
  | literal q t next ih =>
    have literal := closed q t formed.1
    have whole : (Code.literal q t next).chars ++ rest = (q :: (t ++ [q])) ++ (next.chars ++ rest) := by simp [chars]
    have ended : (front ++ q :: (t ++ [q])).getLast?.any joinsName = false := by
      rw [← List.cons_append, ← List.append_assoc]
      exact unjoined_concat (joinsName_quote literal.quote) _
    rw [whole, resolveBehind_silent (silent_literal isName literal.quote (quiet q t formed.1) _ _),
      ih formed.2 objects (fun _ => ended) ends]
    simp [resolved, chars, dropped, Nat.add_assoc]
  | mark c next ih =>
    rw [chars, List.cons_append, resolveBehind_char isName formed.1,
      ih formed.2.2 objects (fun _ => unjoined_concat formed.1 front) ends]
    simp [resolved, chars, dropped]

/-- Resolving the text of code gives the text of the resolved code. -/
theorem resolveCalls_chars (closed : ∀ q t, P q t → Closed q t) (quiet : ∀ q t, P q t → findCall? name t 0 = none)
    (isName : IsName name) (joined : space.all joinsName = true) (formed : e.Formed P) (objects : e.Objects name) :
    resolveCalls name space e.chars = ((e.resolved name space).chars, e.dropped name space 0) := by
  have starts : e.startsName = true → ([] : List Char).getLast?.any joinsName = false := fun _ => rfl
  have whole := resolveBehind_chars closed quiet isName joined formed objects starts ends_nil
  rw [List.append_nil] at whole
  rw [resolveCalls_eq, whole, resolveBehind_nil]
  simp

end Code

end Recast.ClassExpr
