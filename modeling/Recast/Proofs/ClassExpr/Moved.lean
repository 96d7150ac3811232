import Recast.Proofs.ClassExpr.Resolved

/-!
# The class moves into the merging call

A variant call that loses a class entry passes the class on to the innermost merging call around it, which
takes it as a last argument unless it is one already, or to one that is put around it. The calls are handled
from the last one to the first, so the places of those still to be handled stay valid.
-/

set_option autoImplicit false

namespace Recast.ClassExpr

open Recast.Text

namespace Code

/-- The class that callers pass, as an argument. -/
def classWord : Code := word "className".toList done

def hasClass (e : Code) : Bool := decide (classWord ∈ e.arguments)

/-- Arguments with the class among them. -/
def withClass (e : Code) : Code := if e.hasClass then e else e.append (mark ',' (mark ' ' classWord))

/-- The arguments of a merging call that is passed a class or not. -/
def passOn (p : Code × Bool) : Code := if p.2 then p.1.withClass else p.1

/-- A resolved variant call with what follows, where a call that passes the class on leaves it to a merging
call around it or gets one. -/
def variantCall (name : List Char) (args : Code) (passes enclosed : Bool) (later : Code × Bool) : Code × Bool :=
  if passes then
    if enclosed then (call name [] args later.1, true)
    else (call mergeName [] (call name [] args done).withClass later.1, later.2)
  else (call name [] args later.1, later.2)

/-- Any other call with what follows, where a merging call takes the class that is left to it. -/
def otherCall (t gap : List Char) (within later : Code × Bool) : Code × Bool :=
  if t = mergeName then (call t gap (passOn within) later.1, later.2)
  else (call t gap within.1 later.1, within.2 || later.2)

/-- Code whose variant calls are resolved and have passed the class on, and whether a merging call around it
is still to take it; `enclosed` says that there is one. -/
def moved (name space : List Char) (enclosed : Bool) : Code → Code × Bool
  | done => (done, false)
  | word t rest =>
    let later := rest.moved name space enclosed
    (word t later.1, later.2)
  | call t gap inside rest =>
    let later := rest.moved name space enclosed
    if t = name then
      match inside.object? with
      | some body => variantCall name (body.variantInside space) body.dropsClass enclosed later
      | none => (call t gap inside later.1, later.2)
    else otherCall t gap (inside.moved name space (enclosed || t = mergeName)) later
  | group b inside rest =>
    let within := inside.moved name space enclosed
    let later := rest.moved name space enclosed
    (group b within.1 later.1, within.2 || later.2)
  | literal q contents rest =>
    let later := rest.moved name space enclosed
    (literal q contents later.1, later.2)
  | mark c rest =>
    let later := rest.moved name space enclosed
    (mark c later.1, later.2)

/-- The same for code that starts at a place, where the calls in front of the place `n` have only been
resolved so far. -/
def movedFrom (name space : List Char) (n : Nat) (enclosed : Bool) : Nat → Code → Code × Bool
  | _, done => (done, false)
  | i, word t rest =>
    let later := rest.movedFrom name space n enclosed (i + t.length)
    (word t later.1, later.2)
  | i, call t gap inside rest =>
    if t = name then
      match inside.object? with
      | some body =>
        let args := body.variantInside space
        variantCall name args (body.dropsClass && n ≤ i) enclosed
          (rest.movedFrom name space n enclosed (i + (callText name [] args.chars).length))
      | none =>
        let later := rest.movedFrom name space n enclosed (i + t.length + gap.length + (inside.chars.length + 2))
        (call t gap inside later.1, later.2)
    else
      otherCall t gap (inside.movedFrom name space n (enclosed || t = mergeName) (i + t.length + gap.length + 1))
        (rest.movedFrom name space n enclosed
          (i + t.length + gap.length + ((inside.resolved name space).chars.length + 2)))
  | i, group b inside rest =>
    let within := inside.movedFrom name space n enclosed (i + 1)
    let later := rest.movedFrom name space n enclosed (i + ((inside.resolved name space).chars.length + 2))
    (group b within.1 later.1, within.2 || later.2)
  | i, literal q contents rest =>
    let later := rest.movedFrom name space n enclosed (i + (contents.length + 2))
    (literal q contents later.1, later.2)
  | i, mark c rest =>
    let later := rest.movedFrom name space n enclosed (i + 1)
    (mark c later.1, later.2)

variable {P : Char → List Char → Prop} {e : Code} {name space : List Char}

/-! ## Calls handled so far -/

theorem movedFrom_zero (enclosed : Bool) (i : Nat) (e : Code) :
    e.movedFrom name space 0 enclosed i = e.moved name space enclosed := by
  induction e generalizing enclosed i with
  | done => rfl
  | call t gap inside rest ihInside ih =>
    rw [movedFrom, moved]
    simp only [ihInside, ih, Nat.zero_le, decide_true, Bool.and_true]
  | group b inside rest ihInside ih => rw [movedFrom, moved, ihInside, ih]
  | word t rest ih => rw [movedFrom, moved, ih]
  | literal q t rest ih => rw [movedFrom, moved, ih]
  | mark c rest ih => rw [movedFrom, moved, ih]

/-- The calls that lost an entry stand in the resolved text, none of them empty. -/
theorem dropped_bounds {i : Nat} {s : Span} (member : s ∈ e.dropped name space i) :
    i ≤ s.start ∧ s.start < s.stop ∧ s.stop ≤ i + (e.resolved name space).chars.length := by
  induction e generalizing i with
  | done => cases member
  | word t rest ih =>
    have later := ih member
    simp only [resolved, chars, List.length_append]
    omega
  | call t gap inside rest ihInside ih =>
    rw [dropped] at member
    rw [resolved]
    split at member
    · rename_i variant
      rw [if_pos variant]
      split at member
      · rename_i body object
        simp only [chars, callText, List.length_append, List.length_cons, List.length_nil] at member ⊢
        split at member
        · rcases List.mem_cons.mp member with rfl | later
          · simp only
            omega
          · have later := ih later
            omega
        · have later := ih member
          omega
      · rename_i object
        have later := ih member
        simp only [chars, List.length_append, List.length_cons]
        omega
    · rename_i other
      rw [if_neg other]
      simp only [chars, List.length_append, List.length_cons]
      rcases List.mem_append.mp member with within | later
      · have within := ihInside within
        omega
      · have later := ih later
        omega
  | group b inside rest ihInside ih =>
    simp only [resolved, chars, List.length_append, List.length_cons]
    rcases List.mem_append.mp member with within | later
    · have within := ihInside within
      omega
    · have later := ih later
      omega
  | literal q t rest ih =>
    have later := ih member
    simp only [resolved, chars, List.length_append, List.length_cons]
    omega
  | mark c rest ih =>
    have later := ih member
    simp only [resolved, chars, List.length_cons]
    omega

/-- Only the places of the calls that lost an entry matter. -/
theorem movedFrom_congr {n m i : Nat} {enclosed : Bool}
    (same : ∀ s ∈ e.dropped name space i, n ≤ s.start ↔ m ≤ s.start) :
    e.movedFrom name space n enclosed i = e.movedFrom name space m enclosed i := by
  induction e generalizing enclosed i with
  | done => rfl
  | word t rest ih => rw [movedFrom, movedFrom, ih same]
  | call t gap inside rest ihInside ih =>
    rw [dropped] at same
    rw [movedFrom, movedFrom]
    by_cases variant : t = name
    · rw [if_pos variant] at same
      rw [if_pos variant, if_pos variant]
      cases object : inside.object? with
      | some body =>
        simp only [object] at same ⊢
        cases drops : body.dropsClass with
        | true =>
          rw [if_pos drops] at same
          have here := same _ List.mem_cons_self
          rw [ih fun s member => same s (List.mem_cons_of_mem _ member)]
          simp only [here]
        | false =>
          rw [drops, if_neg Bool.false_ne_true] at same
          rw [ih same]
          rfl
      | none =>
        simp only [object] at same ⊢
        rw [ih same]
    · rw [if_neg variant] at same
      rw [if_neg variant, if_neg variant, ihInside fun s member => same s (List.mem_append_left _ member),
        ih fun s member => same s (List.mem_append_right _ member)]
  | group b inside rest ihInside ih =>
    rw [movedFrom, movedFrom, ihInside fun s member => same s (List.mem_append_left _ member),
      ih fun s member => same s (List.mem_append_right _ member)]
  | literal q t rest ih => rw [movedFrom, movedFrom, ih same]
  | mark c rest ih => rw [movedFrom, movedFrom, ih same]

theorem variantCall_of_not (args : Code) (enclosed : Bool) (later : Code × Bool) :
    variantCall name args false enclosed later = (call name [] args later.1, later.2) := rfl

theorem otherCall_of_not (t gap : List Char) (within : Code) (later : Code × Bool) :
    otherCall t gap (within, false) later = (call t gap within later.1, later.2) := by
  rw [otherCall, passOn, if_neg Bool.false_ne_true, Bool.false_or, ite_self]

/-- A call alone is not the class, so the class is put behind it. -/
theorem withClass_call (t gap : List Char) (inside : Code) :
    (call t gap inside done).withClass = call t gap inside (mark ',' (mark ' ' classWord)) := by
  have alone : (call t gap inside done).arguments = [call t gap inside done] := rfl
  rw [withClass, if_neg]
  · rfl
  · simp [hasClass, alone, classWord]

/-- Before any call is handled the code is only resolved. -/
theorem movedFrom_of_lt {n i : Nat} {enclosed : Bool} (below : ∀ s ∈ e.dropped name space i, s.start < n) :
    e.movedFrom name space n enclosed i = (e.resolved name space, false) := by
  induction e generalizing enclosed i with
  | done => rfl
  | word t rest ih => rw [movedFrom, ih below, resolved]
  | call t gap inside rest ihInside ih =>
    rw [dropped] at below
    rw [movedFrom, resolved]
    by_cases variant : t = name
    · rw [if_pos variant] at below
      rw [if_pos variant, if_pos variant]
      cases object : inside.object? with
      | some body =>
        simp only [object] at below ⊢
        cases drops : body.dropsClass with
        | true =>
          rw [if_pos drops] at below
          have here : ¬n ≤ i := Nat.not_le.mpr (below _ List.mem_cons_self)
          rw [ih fun s member => below s (List.mem_cons_of_mem _ member), decide_eq_false here]
          rfl
        | false =>
          rw [drops, if_neg Bool.false_ne_true] at below
          rw [ih below]
          rfl
      | none =>
        simp only [object] at below ⊢
        rw [ih below]
    · rw [if_neg variant] at below
      rw [if_neg variant, if_neg variant, ihInside fun s member => below s (List.mem_append_left _ member),
        ih fun s member => below s (List.mem_append_right _ member), otherCall_of_not]
  | group b inside rest ihInside ih =>
    rw [movedFrom, ihInside fun s member => below s (List.mem_append_left _ member),
      ih fun s member => below s (List.mem_append_right _ member)]
    rfl
  | literal q t rest ih => rw [movedFrom, ih below, resolved]
  | mark c rest ih => rw [movedFrom, ih below, resolved]

theorem length_passOn_le (p : Code × Bool) : p.1.chars.length ≤ (passOn p).chars.length := by
  rw [passOn, withClass]
  split
  · split
    · exact le_rfl
    · rw [chars_append, List.length_append]
      exact Nat.le_add_right _ _
  · exact le_rfl

theorem length_variantCall_le (args : Code) (passes enclosed : Bool) (later : Code × Bool) :
    (call name [] args later.1).chars.length ≤ (variantCall name args passes enclosed later).1.chars.length := by
  rw [variantCall]
  split
  · split
    · exact le_rfl
    · rw [withClass_call]
      simp only [chars, List.length_append, List.length_cons]
      omega
  · exact le_rfl

theorem length_otherCall_le (t gap : List Char) (within later : Code × Bool) :
    (call t gap within.1 later.1).chars.length ≤ (otherCall t gap within later).1.chars.length := by
  have passed := length_passOn_le within
  rw [otherCall]
  split
  · simp only [chars, List.length_append, List.length_cons]
    omega
  · exact le_rfl

/-- Handling calls only adds text. -/
theorem length_resolved_le (n i : Nat) (enclosed : Bool) (e : Code) :
    (e.resolved name space).chars.length ≤ (e.movedFrom name space n enclosed i).1.chars.length := by
  induction e generalizing i enclosed with
  | done => exact le_rfl
  | word t rest ih =>
    have later := ih (i + t.length) enclosed
    simp only [resolved, movedFrom, chars, List.length_append]
    omega
  | call t gap inside rest ihInside ih =>
    rw [resolved, movedFrom]
    by_cases variant : t = name
    · rw [if_pos variant, if_pos variant]
      cases object : inside.object? with
      | some body =>
        have later := ih (i + (callText name [] (body.variantInside space).chars).length) enclosed
        refine le_trans ?_ (length_variantCall_le _ _ _ _)
        simp only [chars, List.length_append, List.length_cons]
        omega
      | none =>
        have later := ih (i + t.length + gap.length + (inside.chars.length + 2)) enclosed
        simp only [chars, List.length_append, List.length_cons]
        omega
    · rw [if_neg variant, if_neg variant]
      have within := ihInside (i + t.length + gap.length + 1) (enclosed || t = mergeName)
      have later := ih (i + t.length + gap.length + ((inside.resolved name space).chars.length + 2)) enclosed
      refine le_trans ?_ (length_otherCall_le _ _ _ _)
      simp only [chars, List.length_append, List.length_cons]
      omega
  | group b inside rest ihInside ih =>
    have within := ihInside (i + 1) enclosed
    have later := ih (i + ((inside.resolved name space).chars.length + 2)) enclosed
    simp only [resolved, movedFrom, chars, List.length_append, List.length_cons]
    omega
  | literal q t rest ih =>
    have later := ih (i + (t.length + 2)) enclosed
    simp only [resolved, movedFrom, chars, List.length_append, List.length_cons]
    omega
  | mark c rest ih =>
    have later := ih (i + 1) enclosed
    simp only [resolved, movedFrom, chars, List.length_cons]
    omega

theorem movedFrom_startsLike (n i : Nat) (enclosed : Bool) (e : Code) :
    (e.movedFrom name space n enclosed i).1.StartsLike e := by
  induction e generalizing i with
  | done => exact .done _
  | mark c rest ih => exact (ih (i + 1)).mark c
  | call t gap inside rest =>
    refine ⟨fun h => (Bool.false_ne_true h.symm).elim, fun _ => ?_⟩
    rw [movedFrom]
    split
    · split
      · rw [variantCall]
        split
        · split <;> rfl
        · rfl
      · rfl
    · rw [otherCall]
      split <;> rfl
  | _ => exact ⟨fun h => h, fun h => h⟩

theorem formed_classWord : classWord.Formed P := ⟨by decide, rfl, trivial⟩

theorem formed_append_class (formed : e.Formed P) : (e.append (mark ',' (mark ' ' classWord))).Formed P :=
  formed_append formed ⟨by decide, by decide, by decide, by decide, formed_classWord⟩ rfl

theorem formed_withClass (formed : e.Formed P) : e.withClass.Formed P := by
  rw [withClass]
  split
  · exact formed
  · exact formed_append_class formed

theorem formed_passOn {p : Code × Bool} (formed : p.1.Formed P) : (passOn p).Formed P := by
  rw [passOn]
  split
  · exact formed_withClass formed
  · exact formed

theorem isName_mergeName : IsName mergeName := by decide

theorem formed_variantCall (isName : IsName name) {args : Code} (formed : args.Formed P) {later : Code × Bool}
    (behind : later.1.Formed P) (passes enclosed : Bool) :
    (variantCall name args passes enclosed later).1.Formed P := by
  have plain : (call name [] args later.1).Formed P := ⟨isName, rfl, formed, behind⟩
  rw [variantCall]
  split
  · split
    · exact plain
    · exact ⟨isName_mergeName, rfl, formed_withClass ⟨isName, rfl, formed, trivial⟩, behind⟩
  · exact plain

theorem formed_otherCall {t gap : List Char} (isName : IsName t) (blank : gap.all isBlank = true)
    {within later : Code × Bool} (formed : within.1.Formed P) (behind : later.1.Formed P) :
    (otherCall t gap within later).1.Formed P := by
  rw [otherCall]
  split
  · exact ⟨isName, blank, formed_passOn formed, behind⟩
  · exact ⟨isName, blank, formed, behind⟩

theorem formed_movedFrom (isName : IsName name) (joined : space.all joinsName = true) (formed : e.Formed P)
    (n i : Nat) (enclosed : Bool) : (e.movedFrom name space n enclosed i).1.Formed P := by
  induction e generalizing i enclosed with
  | done => trivial
  | word t rest ih =>
    exact ⟨formed.1, (rest.movedFrom_startsLike n _ enclosed).apart formed.2.1, ih formed.2.2 _ _⟩
  | call t gap inside rest ihInside ih =>
    obtain ⟨isName', blank, within, behind⟩ := formed
    rw [movedFrom]
    split
    · split
      · rename_i body object
        exact formed_variantCall isName (formed_variantInside joined (formed_object within object)) (ih behind _ _) _ _
      · exact ⟨isName', blank, within, ih behind _ _⟩
    · exact formed_otherCall isName' blank (ihInside within _ _) (ih behind _ _)
  | group b inside rest ihInside ih => exact ⟨ihInside formed.1 _ _, ih formed.2 _ _⟩
  | literal q t rest ih => exact ⟨formed.1, ih formed.2 _ _⟩
  | mark c rest ih => exact ⟨formed.1, formed.2.1, ih formed.2.2 _ _⟩

/-! ## Arguments with the class -/

/-- The arguments of code only depend on what stands in it outside brackets: code with nothing in its
brackets. -/
def outline : Code → Code
  | done => done
  | word t rest => word t rest.outline
  | call t _ _ rest => call t [] done rest.outline
  | group b _ rest => group b done rest.outline
  | literal q contents rest => literal q contents rest.outline
  | mark c rest => mark c rest.outline

theorem outline_eq_done_iff : e.outline = done ↔ e = done := by
  cases e <;> simp [outline]

theorem outline_eq_classWord_iff : e.outline = classWord ↔ e = classWord := by
  cases e with
  | word t rest => simp [outline, classWord, outline_eq_done_iff]
  | _ => simp [outline, classWord]

theorem parts_outline (e : Code) : e.outline.parts = e.parts.map outline := by
  have onFirst_outline {f g : Code → Code} (x : Code) (same : ∀ x, g x.outline = (f x).outline) :
      onFirst g (x.parts.map outline) = (onFirst f x.parts).map outline := by
    obtain ⟨first, others, shape, -⟩ := x.exists_parts
    rw [shape, List.map_cons, onFirst, onFirst, List.map_cons, same]
  induction e with
  | done => rfl
  | word t rest ih =>
    rw [outline, parts, ih, parts]
    exact onFirst_outline rest fun _ => rfl
  | call t gap inside rest _ ih =>
    rw [outline, parts, ih, parts]
    exact onFirst_outline rest fun _ => rfl
  | group b inside rest _ ih =>
    rw [outline, parts, ih, parts]
    exact onFirst_outline rest fun _ => rfl
  | literal q t rest ih =>
    rw [outline, parts, ih, parts]
    exact onFirst_outline rest fun _ => rfl
  | mark c rest ih =>
    rw [outline, parts, ih, parts]
    split
    · rfl
    · exact onFirst_outline rest fun _ => rfl

theorem trim_outline (e : Code) : e.outline.trim = e.trim.outline := by
  have start : e.outline.trimStart = e.trimStart.outline := by
    induction e with
    | mark c rest ih =>
      rw [outline, trimStart, trimStart]
      split
      · exact ih
      · rfl
    | _ => rfl
  have stop (x : Code) : x.outline.trimEnd = x.trimEnd.outline := by
    induction x with
    | done => rfl
    | mark c rest ih =>
      rw [outline, trimEnd, trimEnd, ih]
      simp only [outline_eq_done_iff]
      split <;> rfl
    | word t rest ih => rw [outline, trimEnd, trimEnd, ih, outline]
    | call t gap inside rest _ ih => rw [outline, trimEnd, trimEnd, ih, outline]
    | group b inside rest _ ih => rw [outline, trimEnd, trimEnd, ih, outline]
    | literal q t rest ih => rw [outline, trimEnd, trimEnd, ih, outline]
  rw [trim, start, stop, trim]

theorem mem_arguments_iff {x : Code} : x ∈ e.arguments ↔ (∃ part ∈ e.parts, part.trim = x) ∧ x ≠ done := by
  simp [arguments]

theorem hasClass_outline (e : Code) : e.outline.hasClass = e.hasClass := by
  have same : classWord ∈ e.outline.arguments ↔ classWord ∈ e.arguments := by
    simp only [mem_arguments_iff, parts_outline, List.mem_map, exists_exists_and_eq_and, trim_outline,
      outline_eq_classWord_iff]
  simp only [hasClass, same]

/-- Handling a call inside a merging call leaves the outline of its arguments. -/
theorem outline_movedFrom (n i : Nat) (e : Code) : (e.movedFrom name space n true i).1.outline = e.outline := by
  induction e generalizing i with
  | done => rfl
  | call t gap inside rest _ ih =>
    rw [movedFrom, otherCall]
    split
    · rename_i variant
      split
      · rw [variantCall, if_pos rfl, outline, ← ih, variant]
        split <;> rfl
      · rw [outline, outline, ih]
    · split <;> rw [outline, outline, ih]
  | word t rest ih => rw [movedFrom, outline, outline, ih]
  | group b inside rest _ ih => rw [movedFrom, outline, outline, ih]
  | literal q t rest ih => rw [movedFrom, outline, outline, ih]
  | mark c rest ih => rw [movedFrom, outline, outline, ih]

theorem hasClass_movedFrom (n i : Nat) (e : Code) : (e.movedFrom name space n true i).1.hasClass = e.hasClass := by
  rw [← hasClass_outline, outline_movedFrom, hasClass_outline]

theorem parts_append_comma (a b : Code) : (a.append (mark ',' b)).parts = a.parts ++ b.parts := by
  have onFirst_append {f : Code → Code} (x : Code) (others : List Code) :
      onFirst f (x.parts ++ others) = onFirst f x.parts ++ others := by
    obtain ⟨first, rest, shape, -⟩ := x.exists_parts
    rw [shape]
    rfl
  induction a with
  | done => rfl
  | word t rest ih => rw [append, parts, ih, parts, onFirst_append]
  | call t gap inside rest _ ih => rw [append, parts, ih, parts, onFirst_append]
  | group k inside rest _ ih => rw [append, parts, ih, parts, onFirst_append]
  | literal q t rest ih => rw [append, parts, ih, parts, onFirst_append]
  | mark c rest ih =>
    rw [append, parts, ih, parts]
    split
    · rfl
    · rw [onFirst_append]

theorem arguments_append_class (e : Code) :
    (e.append (mark ',' (mark ' ' classWord))).arguments = e.arguments ++ [classWord] := by
  have last : (((mark ' ' classWord).parts.map trim).filter (· ≠ done)) = [classWord] := by decide
  rw [arguments, parts_append_comma, List.map_append, List.filter_append, last, arguments]

/-- The class is an argument once it is passed, and the others are those that were there. -/
theorem arguments_withClass (e : Code) :
    e.withClass.arguments = if classWord ∈ e.arguments then e.arguments else e.arguments ++ [classWord] := by
  rw [withClass, hasClass]
  by_cases present : classWord ∈ e.arguments
  · simp [present]
  · simp [present, arguments_append_class]

theorem withClass_withClass (e : Code) : e.withClass.withClass = e.withClass := by
  have present : e.withClass.hasClass = true := by
    rw [hasClass, decide_eq_true_iff, arguments_withClass]
    split
    · assumption
    · simp
  rw [withClass, if_pos present]

end Code

end Recast.ClassExpr
