import Recast.Proofs.ClassExpr.Enclosing

/-!
# Passing the class to the merging call

The calls that lost a class entry are handled from the last one to the first. Handling one of them in text
does to the text what it does to the code: the innermost merging call around it takes the class, or one is
put around it. The places in front of it stay valid, so after the first of them has been handled the text is
that of the moved code.
-/

set_option autoImplicit false

namespace Recast.ClassExpr

open Recast.Text

namespace Code

variable {P : Char → List Char → Prop} {e : Code} {name space : List Char}

/-- How code that starts at a place changes when the call at a span passes the class on. -/
inductive Passes (P : Char → List Char → Prop) (s : Span) (enclosed : Bool) (i : Nat)
    (before after : Code × Bool) : Prop where
  /-- A merging call of the code takes it. -/
  | taken (front : List Char) (args : Code) (back : List Char) (formed : args.Formed P)
      (text : before.1.chars = front ++ (args.chars ++ back))
      (around : ∀ best, before.1.enclosing s i best =
        some (i + front.length - 1, i + front.length + args.chars.length))
      (opens : 0 < front.length)
      (result : after.1.chars = front ++ (args.withClass.chars ++ back)) (flag : after.2 = before.2)
  /-- It is left to a merging call around the code. -/
  | left (inMerge : enclosed = true) (around : ∀ best, before.1.enclosing s i best = best)
      (result : after = (before.1, true))
  /-- A merging call is put around the call. -/
  | wrapped (front call back : List Char) (free : enclosed = false)
      (around : ∀ best, before.1.enclosing s i best = best)
      (text : before.1.chars = front ++ (call ++ back))
      (place : s = ⟨i + front.length, i + front.length + call.length⟩)
      (result : after.1.chars = front ++ (mergeName ++ '(' :: (call ++ ", className)".toList) ++ back))
      (flag : after.2 = before.2)

/-- The same in front of and behind other code. -/
theorem Passes.context {s : Span} {enclosed : Bool} {i k : Nat} {before after : Code × Bool}
    (h : Passes P s enclosed k before after) (F : Code → Code) (lead tail : List Char)
    (text : ∀ x, (F x).chars = lead ++ (x.chars ++ tail)) (place : k = i + lead.length)
    (around : ∀ best, (F before.1).enclosing s i best = before.1.enclosing s k best) (flag : Bool) :
    Passes P s enclosed i (F before.1, before.2 || flag) (F after.1, after.2 || flag) := by
  subst place
  cases h with
  | taken front args back formed shape innermost opens result same =>
    refine .taken (lead ++ front) args (back ++ tail) formed ?_ (fun best => ?_) ?_ ?_ ?_
    · rw [text, shape]
      simp
    · rw [around, innermost, List.length_append, Nat.add_assoc]
    · rw [List.length_append]
      omega
    · rw [text, result]
      simp
    · rw [same]
  | left inMerge nothing result =>
    refine .left inMerge (fun best => by rw [around, nothing]) ?_
    rw [result]
    rfl
  | wrapped front call back free nothing shape place result same =>
    refine .wrapped (lead ++ front) call (back ++ tail) free (fun best => by rw [around, nothing]) ?_ ?_ ?_ ?_
    · rw [text, shape]
      simp
    · rw [place, List.length_append, Nat.add_assoc]
    · rw [text, result]
      simp
    · rw [same]

def passedText (p : Code × Bool) : List Char :=
  if p.2 ∧ p.1.hasClass = false then ", className".toList else []

theorem chars_passOn (p : Code × Bool) : (passOn p).chars = p.1.chars ++ passedText p := by
  rw [passOn, withClass, passedText]
  cases p.2 <;> cases p.1.hasClass <;> simp [classWord, chars]

theorem enclosing_passOn (p : Code × Bool) (s : Span) (i : Nat) (best : Option (Nat × Nat)) :
    (passOn p).enclosing s i best = p.1.enclosing s i best := by
  rw [passOn, withClass]
  split
  · split
    · rfl
    · rw [enclosing_append]
      rfl
  · rfl

theorem withClass_passOn (p : Code × Bool) : (passOn p).withClass = p.1.withClass := by
  rw [passOn]
  split
  · exact withClass_withClass p.1
  · rfl

/-- The arguments of a merging call around the call, which takes the class if none of its arguments did. -/
theorem Passes.merging {s : Span} {i : Nat} {gap : List Char} {before after : Code × Bool}
    (h : Passes P s true (i + mergeName.length + gap.length + 1) before after) (formed : before.1.Formed P)
    (same : after.1.hasClass = before.1.hasClass) (starts : i ≤ s.start)
    (ordered : s.start < s.stop) (stops : s.stop ≤ i + mergeName.length + gap.length + 1 + before.1.chars.length)
    (enclosed : Bool) (rest : Code) (flag : Bool) :
    Passes P s enclosed i (call mergeName gap (passOn before) rest, flag)
      (call mergeName gap (passOn after) rest, flag) := by
  have longer := length_passOn_le before
  have around (best : Option (Nat × Nat)) :
      (call mergeName gap (passOn before) rest).enclosing s i best =
        before.1.enclosing s (i + mergeName.length + gap.length + 1)
          (some (i + mergeName.length + gap.length,
            i + mergeName.length + gap.length + 1 + (passOn before).chars.length)) := by
    rw [enclosing, if_pos ⟨rfl, starts, by omega⟩, enclosing_passOn, enclosing_of_lt (by omega)]
  have text (x : Code) : (call mergeName gap x rest).chars =
      (mergeName ++ (gap ++ ['('])) ++ (x.chars ++ ')' :: rest.chars) := by simp [chars]
  have lead : (mergeName ++ (gap ++ ['('])).length = mergeName.length + gap.length + 1 := by
    simp only [List.length_append, List.length_cons, List.length_nil]
    omega
  cases h with
  | taken front args back formedArgs shape innermost opens result flags =>
    have extra : passedText after = passedText before := by rw [passedText, passedText, flags, same]
    refine .taken (mergeName ++ (gap ++ ['(']) ++ front) args (back ++ (passedText before ++ ')' :: rest.chars))
      formedArgs ?_ (fun best => ?_) ?_ ?_ rfl
    · rw [text, chars_passOn, shape]
      simp
    · rw [around, innermost, List.length_append, lead]
      simp only [Nat.add_assoc]
    · rw [List.length_append]
      omega
    · rw [text, chars_passOn, result, extra]
      simp
  | left _ nothing result =>
    refine .taken (mergeName ++ (gap ++ ['('])) (passOn before) (')' :: rest.chars) (formed_passOn formed)
      (text _) (fun best => ?_) ?_ ?_ rfl
    · rw [around, nothing, lead]
      simp only [Nat.add_assoc]
      rfl
    · rw [lead]
      omega
    · rw [text, withClass_passOn, result]
      rfl
  | wrapped _ _ _ free => cases free

theorem passes_variantCall (other : name ≠ mergeName) (args : Code) (later : Code × Bool) (enclosed : Bool) (i : Nat) :
    Passes P ⟨i, i + (callText name [] args.chars).length⟩ enclosed i (variantCall name args false enclosed later)
      (variantCall name args true enclosed later) := by
  have around (best : Option (Nat × Nat)) : (call name [] args later.1).enclosing
      ⟨i, i + (callText name [] args.chars).length⟩ i best = best := by
    rw [enclosing, if_neg fun h => other h.1, enclosing_of_lt (by simp only; omega),
      enclosing_of_lt (by simp only; omega)]
  cases enclosed with
  | true => exact .left rfl around rfl
  | false =>
    refine .wrapped [] (callText name [] args.chars) later.1.chars rfl around ?_ rfl ?_ rfl
    · simp [variantCall, chars, callText]
    · simp [variantCall, withClass_call, chars, callText, classWord]

/-! ## Places in front of a span and behind it -/

section Places

variable {s : Span} {n i k : Nat} {enclosed : Bool}

/-- Nothing changes in code that starts behind the span. -/
theorem movedFrom_succ_of_lt (later : s.start < k) :
    e.movedFrom name space (s.start + 1) enclosed k = e.movedFrom name space s.start enclosed k :=
  movedFrom_congr fun u member => by
    have := dropped_bounds member
    omega

/-- Code that ends in front of the span is only resolved. -/
theorem movedFrom_of_le (earlier : k + (e.resolved name space).chars.length ≤ n) :
    e.movedFrom name space n enclosed k = (e.resolved name space, false) :=
  movedFrom_of_lt fun u member => by
    have := dropped_bounds member
    omega

/-- The same behind text that ends in front of the span. -/
theorem Passes.behind {before after : Code × Bool} (h : Passes P s enclosed k before after) (F : Code → Code)
    (lead : List Char) (text : ∀ x, (F x).chars = lead ++ x.chars) (place : k = i + lead.length)
    (around : ∀ best, (F before.1).enclosing s i best = before.1.enclosing s k best) :
    Passes P s enclosed i (F before.1, before.2) (F after.1, after.2) := by
  have whole := h.context F lead [] (by simpa using text) place around false
  simpa only [Bool.or_false] using whole

/-- A variant call that stands in front of the span is not handled yet, and one that stands there is now. -/
theorem passes_variant (isName : IsName name) (other : name ≠ mergeName) {args rest : Code} {drops : Bool} {stop : Nat}
    (place : stop = i + (callText name [] args.chars).length)
    (ih : s ∈ rest.dropped name space stop →
      Passes P s enclosed stop (rest.movedFrom name space (s.start + 1) enclosed stop)
        (rest.movedFrom name space s.start enclosed stop))
    (member : s ∈ if drops then ⟨i, stop⟩ :: rest.dropped name space stop else rest.dropped name space stop) :
    Passes P s enclosed i
      (variantCall name args (drops && decide (s.start + 1 ≤ i)) enclosed
        (rest.movedFrom name space (s.start + 1) enclosed stop))
      (variantCall name args (drops && decide (s.start ≤ i)) enclosed
        (rest.movedFrom name space s.start enclosed stop)) := by
  have length : (callText name [] args.chars).length = name.length + (args.chars.length + 2) := by simp [callText]
  have nonempty := List.length_pos_iff.mpr isName.1
  by_cases later : s ∈ rest.dropped name space stop
  · have bounds := dropped_bounds later
    have past (best : Option (Nat × Nat)) (x : Code) :
        (call name [] args x).enclosing s i best = x.enclosing s stop best := by
      have passed : args.enclosing s (i + name.length + 1) best = best := enclosing_of_le (by omega) bounds.2.1
      have same : stop = i + name.length + (args.chars.length + 2) := by omega
      rw [enclosing, if_neg fun h => other h.1, List.length_nil, Nat.add_zero, passed, same]
    rw [decide_eq_false (by omega), decide_eq_false (by omega), Bool.and_false, variantCall_of_not, variantCall_of_not]
    exact (ih later).behind (call name [] args) (callText name [] args.chars) (fun x => by simp [chars, callText])
      place fun best => past best _
  · cases drops with
    | false => exact absurd member later
    | true =>
      obtain rfl : s = ⟨i, stop⟩ := (List.mem_cons.mp member).resolve_right later
      subst place
      rw [decide_eq_false (by simp), decide_eq_true (by simp), Bool.and_false, Bool.and_true,
        movedFrom_succ_of_lt (by simp only; omega)]
      exact passes_variantCall other args _ enclosed i

/-- A call of another name is handled in what it takes. -/
theorem passes_otherCall (isName : IsName name) (joined : space.all joinsName = true) {t gap : List Char}
    {inside : Code} (formed : inside.Formed P) (place : k = i + t.length + gap.length + 1)
    (ih : Passes P s (enclosed || t = mergeName) k
      (inside.movedFrom name space (s.start + 1) (enclosed || t = mergeName) k)
      (inside.movedFrom name space s.start (enclosed || t = mergeName) k))
    (within : s ∈ inside.dropped name space k) (later : Code × Bool) :
    Passes P s enclosed i
      (otherCall t gap (inside.movedFrom name space (s.start + 1) (enclosed || t = mergeName) k) later)
      (otherCall t gap (inside.movedFrom name space s.start (enclosed || t = mergeName) k) later) := by
  have bounds := dropped_bounds within
  have longer := @length_resolved_le name space (s.start + 1) k (enclosed || t = mergeName) inside
  subst place
  by_cases merges : t = mergeName
  · subst merges
    rw [decide_eq_true rfl, Bool.or_true] at ih longer ⊢
    have formedBefore :=
      formed_movedFrom isName joined formed (s.start + 1) (i + mergeName.length + gap.length + 1) true
    rw [otherCall, if_pos rfl, otherCall, if_pos rfl]
    exact ih.merging formedBefore (by rw [hasClass_movedFrom, hasClass_movedFrom]) (by omega) bounds.2.1 (by omega)
      enclosed later.1 later.2
  · rw [decide_eq_false merges, Bool.or_false] at ih longer ⊢
    rw [otherCall, if_neg merges, otherCall, if_neg merges]
    refine ih.context (fun x => call t gap x later.1) (t ++ (gap ++ ['('])) (')' :: later.1.chars)
      (fun x => by simp [chars]) (by simp [Nat.add_assoc]) (fun _ => ?_) _
    rw [enclosing, if_neg fun h => merges h.1, enclosing_of_lt (by omega)]

end Places

/-- Handling the call at a span, after all those behind it. -/
theorem passes_movedFrom (isName : IsName name) (other : name ≠ mergeName) (joined : space.all joinsName = true)
    (formed : e.Formed P) {s : Span} {i : Nat} (member : s ∈ e.dropped name space i) (enclosed : Bool) :
    Passes P s enclosed i (e.movedFrom name space (s.start + 1) enclosed i)
      (e.movedFrom name space s.start enclosed i) := by
  -- the span stands in one part of each element: parts in front of it are still only resolved, and parts behind
  -- it are handled already
  induction e generalizing i enclosed with
  | done => cases member
  | word t rest ih =>
    exact (ih formed.2.2 member enclosed).behind (word t) t (fun x => by simp [chars]) rfl fun _ => rfl
  | literal q t rest ih =>
    exact (ih formed.2 member enclosed).behind (literal q t) (q :: (t ++ [q])) (fun x => by simp [chars]) (by simp)
      fun _ => rfl
  | mark c rest ih =>
    exact (ih formed.2.2 member enclosed).behind (mark c) [c] (fun x => by simp [chars]) rfl fun _ => rfl
  | group b inside rest ihInside ih =>
    rw [movedFrom, movedFrom]
    rcases List.mem_append.mp member with within | later
    · have bounds := dropped_bounds within
      have longer := @length_resolved_le name space (s.start + 1) (i + 1) enclosed inside
      rw [movedFrom_succ_of_lt (e := rest) (by omega)]
      generalize rest.movedFrom name space s.start enclosed _ = later
      refine (ihInside formed.1 within enclosed).context (fun x => group b x later.1) [b.opening]
        (b.closing :: later.1.chars) (fun x => by simp [chars]) rfl (fun _ => ?_) _
      rw [enclosing, enclosing_of_lt (by omega)]
    · have bounds := dropped_bounds later
      rw [movedFrom_of_le (e := inside) (by omega), movedFrom_of_le (e := inside) (by omega), Bool.false_or,
        Bool.false_or]
      refine (ih formed.2 later enclosed).behind (group b (inside.resolved name space))
        (b.opening :: ((inside.resolved name space).chars ++ [b.closing])) (fun x => by simp [chars]) (by simp)
        fun _ => ?_
      rw [enclosing, enclosing_of_le (e := inside.resolved name space) (by omega) bounds.2.1]
  | call t gap inside rest ihInside ih =>
    obtain ⟨-, -, formedInside, formedRest⟩ := formed
    rw [dropped] at member
    rw [movedFrom, movedFrom]
    by_cases variant : t = name
    · subst variant
      rw [if_pos rfl] at member
      rw [if_pos rfl, if_pos rfl]
      cases object : inside.object? with
      | some body =>
        simp only [object] at member ⊢
        exact passes_variant isName other rfl (fun later => ih formedRest later enclosed) member
      | none =>
        simp only [object] at member ⊢
        have bounds := dropped_bounds member
        refine (ih formedRest member enclosed).behind (call t gap inside) (callText t gap inside.chars)
          (fun x => by simp [chars, callText]) (by simp [callText, Nat.add_assoc]) fun _ => ?_
        rw [enclosing, if_neg fun h => other h.1, enclosing_of_le (e := inside) (by omega) bounds.2.1]
    · rw [if_neg variant] at member
      rw [if_neg variant, if_neg variant]
      rcases List.mem_append.mp member with within | later
      · have bounds := dropped_bounds within
        rw [movedFrom_succ_of_lt (e := rest) (by omega)]
        exact passes_otherCall isName joined formedInside rfl (ihInside formedInside within _) within _
      · have bounds := dropped_bounds later
        rw [movedFrom_of_le (e := inside) (by omega), movedFrom_of_le (e := inside) (by omega), otherCall_of_not,
          otherCall_of_not]
        refine (ih formedRest later enclosed).behind (call t gap (inside.resolved name space))
          (callText t gap (inside.resolved name space).chars) (fun x => by simp [chars, callText])
          (by simp [callText, Nat.add_assoc]) fun _ => ?_
        rw [enclosing, if_neg (by omega), enclosing_of_le (e := inside.resolved name space) (by omega) bounds.2.1]

/-! ## One call in text -/

theorem eq_classWord_iff (closed : ∀ q t, P q t → Closed q t) (formed : e.Formed P) :
    e.chars = "className".toList ↔ e = classWord := by
  constructor
  · intro text
    have joined : "className".toList.all joinsName = true := by decide
    rw [eq_word_of_joinsName closed formed (by simp [text]) (by rw [text]; exact List.all_eq_true.mp joined), text]
    rfl
  · rintro rfl
    rfl

/-- The class is among the parts of the text exactly if it is an argument. -/
theorem contains_splitTopLevel (closed : ∀ q t, P q t → Closed q t) (formed : e.Formed P) :
    (splitTopLevel ',' e.chars).contains "className".toList = e.hasClass := by
  rw [splitTopLevel_chars closed formed, Bool.eq_iff_iff, List.contains_iff_mem, hasClass, decide_eq_true_iff,
    List.mem_map]
  constructor
  · rintro ⟨argument, member, text⟩
    rwa [(eq_classWord_iff closed (formed_arguments formed argument member)).mp text] at member
  · exact fun member => ⟨classWord, member, rfl⟩

/-- Passing the class on in text does what it does in code. -/
theorem appendClass_passes (closed : ∀ q t, P q t → Closed q t)
    (quiet : ∀ q t, P q t → findCall? mergeName t 0 = none) {s : Span} {before after : Code × Bool}
    (formed : before.1.Formed P) (h : Passes P s false 0 before after) :
    appendClass before.1.chars s "className".toList = after.1.chars := by
  have search := enclosingMerge?_chars closed quiet formed s
  cases h with
  | taken front args back formedArgs text around opens result =>
    rw [around none] at search
    have opened : 0 + front.length - 1 + 1 = front.length := by omega
    have closeAt : 0 + front.length + args.chars.length = (front ++ args.chars).length := by simp
    have split : before.1.chars = (front ++ args.chars) ++ back := by rw [text, List.append_assoc]
    rw [appendClass, search]
    dsimp only
    rw [opened, closeAt, split, List.take_left, List.drop_left, List.drop_left,
      contains_splitTopLevel closed formedArgs, result, withClass]
    split
    · rw [List.append_assoc]
    · simp [classWord, chars]
  | left inMerge => cases inMerge
  | wrapped front call back free around text place result =>
    rw [around none] at search
    have start : 0 + front.length = front.length := Nat.zero_add _
    have stop : 0 + front.length + call.length = (front ++ call).length := by simp
    have split : before.1.chars = (front ++ call) ++ back := by rw [text, List.append_assoc]
    have before : (front ++ call ++ back).take front.length = front := by rw [List.append_assoc, List.take_left]
    rw [appendClass, search, place]
    dsimp only
    rw [stop, start, split, List.take_left, List.drop_left, List.drop_left, before, result]
    simp

/-! ## All calls -/

theorem dropped_sorted (i : Nat) (e : Code) : (e.dropped name space i).Pairwise fun s t => s.start < t.start := by
  have append {a b : Code} {j k : Nat} (apart : j + (a.resolved name space).chars.length ≤ k)
      (first : (a.dropped name space j).Pairwise fun s t => s.start < t.start)
      (second : (b.dropped name space k).Pairwise fun s t => s.start < t.start) :
      (a.dropped name space j ++ b.dropped name space k).Pairwise fun s t => s.start < t.start := by
    refine List.pairwise_append.mpr ⟨first, second, fun s inFirst t inSecond => ?_⟩
    have before := dropped_bounds inFirst
    have behind := dropped_bounds inSecond
    omega
  induction e generalizing i with
  | done => exact .nil
  | word t rest ih => exact ih _
  | call t gap inside rest ihInside ih =>
    rw [dropped]
    split
    · split
      · rename_i body object
        dsimp only
        split
        · refine .cons (fun s member => ?_) (ih _)
          have bounds := dropped_bounds member
          simp only [callText, List.length_append, List.length_cons] at bounds ⊢
          omega
        · exact ih _
      · exact ih _
    · exact append (by omega) (ihInside _) (ih _)
  | group b inside rest ihInside ih => exact append (by omega) (ihInside _) (ih _)
  | literal q t rest ih => exact ih _
  | mark c rest ih => exact ih _

/-- Passing the class on from the last call to the first gives the moved code. -/
theorem foldl_appendClass (closed : ∀ q t, P q t → Closed q t)
    (quiet : ∀ q t, P q t → findCall? mergeName t 0 = none) (isName : IsName name) (other : name ≠ mergeName)
    (joined : space.all joinsName = true) (formed : e.Formed P) :
    (e.dropped name space 0).reverse.foldl (fun code span => appendClass code span "className".toList)
        (e.resolved name space).chars =
      (e.moved name space false).1.chars := by
  -- handling the spans behind a place gives the code moved from there on
  have suffix (front back : List Span) (n : Nat) (all : e.dropped name space 0 = front ++ back)
      (before : ∀ s ∈ front, s.start < n) (behind : ∀ s ∈ back, n ≤ s.start) :
      back.foldr (fun span code => appendClass code span "className".toList) (e.resolved name space).chars =
        (e.movedFrom name space n false 0).1.chars := by
    induction back generalizing front n with
    | nil =>
      rw [movedFrom_of_lt (n := n) (by simpa [all] using before)]
      rfl
    | cons s back ih =>
      have sorted : (e.dropped name space 0).Pairwise _ := dropped_sorted 0 e
      rw [all, List.pairwise_append, List.pairwise_cons] at sorted
      have later := ih (front ++ [s]) (s.start + 1) (by simp [all])
        (by
          intro t member
          rcases List.mem_append.mp member with inFront | here
          · have := sorted.2.2 t inFront s (by simp)
            omega
          · rw [List.mem_singleton.mp here]
            omega)
        (fun t member => sorted.2.1.1 t member)
      have passes := passes_movedFrom isName other joined formed (s := s) (i := 0) (by simp [all]) false
      have formed' := formed_movedFrom isName joined formed (s.start + 1) 0 false
      have same : e.movedFrom name space n false 0 = e.movedFrom name space s.start false 0 :=
        movedFrom_congr fun t member => by
          have here := behind s (by simp)
          rw [all] at member
          rcases List.mem_append.mp member with inFront | inBack
          · have := before t inFront
            have := sorted.2.2 t inFront s (by simp)
            omega
          · have := behind t inBack
            rcases List.mem_cons.mp inBack with rfl | later
            · omega
            · have := sorted.2.1.1 t later
              omega
      rw [List.foldr_cons, later, appendClass_passes closed quiet formed' passes, same]
  rw [List.foldl_reverse, suffix [] _ 0 rfl (by simp) (by simp), movedFrom_zero]

end Code

end Recast.ClassExpr
