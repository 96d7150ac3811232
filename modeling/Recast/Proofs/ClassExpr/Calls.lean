import Recast.ClassExpr.Basic
import Recast.Proofs.ClassExpr.Code

/-!
# Calls by name

Calls are searched for in text, at every place that no name runs into. In code a search only finds the calls
that the code has, and it finds each of them with its parentheses. So resolving calls and looking for the
call around a span go over code element by element.
-/

set_option autoImplicit false

namespace Recast.ClassExpr

open Recast.Text

/-! ## Where a call starts -/

theorem startsCall_iff {name cs : List Char} :
    startsCall name cs = true ↔
      ∃ blanks back, cs = name ++ (blanks ++ '(' :: back) ∧ ∀ b ∈ blanks, isBlank b = true := by
  have bracket : isBlank '(' = false := by decide
  constructor
  · intro starts
    rw [startsCall] at starts
    split at starts
    · rename_i rest found
      obtain ⟨back, behind⟩ := List.head?_eq_some_iff.mp (beq_iff_eq.mp starts)
      refine ⟨rest.takeWhile isBlank, back, ?_, fun b member => List.mem_takeWhile_imp member⟩
      rw [← behind, List.takeWhile_append_dropWhile]
      exact after?_eq_some_iff.mp found
    · cases starts
  · rintro ⟨blanks, back, rfl, blank⟩
    rw [startsCall, after?_append]
    dsimp only
    rw [List.dropWhile_append_of_pos blank, List.dropWhile_cons_of_neg (by simp [bracket])]
    rfl

def callRule (name : List Char) : Rule Unit := fun previous cs =>
  if !previous.any joinsName && startsCall name cs then some ((), cs) else none

theorem findCallIn?_eq (name : List Char) (previous : Option Char) (i : Nat) (c : Char) (cs : List Char) :
    findCallIn? name previous i (c :: cs) =
      if (callRule name previous (c :: cs)).isSome then some i else findCallIn? name (some c) (i + 1) cs := by
  rw [findCallIn?, callRule]
  split <;> simp

theorem findCallIn?_silent {name : List Char} {previous : Option Char} {text rest : List Char}
    (silent : Silent (callRule name) previous text rest) (i : Nat) :
    findCallIn? name previous i (text ++ rest) =
      findCallIn? name (lastOr previous text) (i + text.length) rest := by
  induction text generalizing previous i with
  | nil => rfl
  | cons c text ih =>
    rw [List.cons_append, findCallIn?_eq, silent.1, ih silent.2, lastOr_cons, List.length_cons]
    simp [Nat.add_comm, Nat.add_left_comm]

theorem silent_of_findCallIn? {name : List Char} {previous : Option Char} {text : List Char} {i : Nat}
    (nothing : findCallIn? name previous i text = none) : Silent (callRule name) previous text [] := by
  induction text generalizing previous i with
  | nil => trivial
  | cons c text ih =>
    rw [findCallIn?_eq] at nothing
    split at nothing
    · cases nothing
    · rename_i here
      exact ⟨by simpa using here, ih nothing⟩

theorem findCall?_append (name front back : List Char) :
    findCall? name (front ++ back) front.length = findCallIn? name front.getLast? front.length back := by
  rw [findCall?, List.drop_left]
  congr 1
  split
  · rename_i empty
    rw [List.length_eq_zero_iff.mp empty]
    rfl
  · rename_i nonempty
    rw [List.getElem?_append_left (by omega), List.getLast?_eq_getElem?]

theorem findCallIn?_eq_some {name : List Char} {previous : Option Char} {i start : Nat} {cs : List Char}
    (found : findCallIn? name previous i cs = some start) :
    ∃ front back, cs = front ++ back ∧ start = i + front.length ∧ startsCall name back = true ∧
      (lastOr previous front).any joinsName = false := by
  induction cs generalizing previous i with
  | nil => cases found
  | cons c cs ih =>
    rw [findCallIn?] at found
    split at found
    · rename_i here
      obtain ⟨apart, starts⟩ := Bool.and_eq_true_iff.mp here
      exact ⟨[], c :: cs, rfl, (Option.some.inj found).symm, starts, by simpa using apart⟩
    · obtain ⟨front, back, rfl, rfl, starts, apart⟩ := ih found
      exact ⟨c :: front, back, rfl, by simp [Nat.add_comm, Nat.add_left_comm], starts, by rwa [lastOr_cons]⟩

/-- A call of a name: the name, joined to nothing in front of it, and an opening parenthesis, with blanks
between them or not. -/
def Calls (name code : List Char) : Prop :=
  ∃ front blanks back : List Char, code = front ++ (name ++ (blanks ++ '(' :: back)) ∧
    (∀ b ∈ blanks, isBlank b = true) ∧ front.getLast?.any joinsName = false

theorem findCallIn?_isSome_iff (name : List Char) (previous : Option Char) (i : Nat) (cs : List Char) :
    (findCallIn? name previous i cs).isSome = true ↔
      ∃ front back, cs = front ++ back ∧ startsCall name back = true ∧
        (front.getLast?.or previous).any joinsName = false := by
  induction cs generalizing previous i with
  | nil =>
    have nothing : startsCall name [] = false := by
      cases name <;> rfl
    simp [findCallIn?, nothing]
  | cons c cs ih =>
    rw [findCallIn?]
    by_cases here : previous.any joinsName = false ∧ startsCall name (c :: cs) = true
    · rw [if_pos (by simp [here])]
      exact iff_of_true rfl ⟨[], c :: cs, rfl, here.2, here.1⟩
    · rw [if_neg (by simpa using here), ih]
      constructor
      · rintro ⟨front, back, rfl, starts, apart⟩
        refine ⟨c :: front, back, rfl, starts, ?_⟩
        cases front <;> simpa [List.getLast?_cons] using apart
      · rintro ⟨front, back, split, starts, apart⟩
        cases front with
        | nil =>
          obtain rfl : c :: cs = back := split
          exact absurd ⟨apart, starts⟩ here
        | cons d front =>
          obtain ⟨rfl, rfl⟩ := List.cons.inj split
          refine ⟨front, back, rfl, starts, ?_⟩
          cases front <;> simpa [List.getLast?_cons] using apart

/-- A search from the start of a text finds something if and only if the text calls the name. -/
theorem findCall?_isSome_iff (name code : List Char) :
    (findCall? name code 0).isSome = true ↔ Calls name code := by
  rw [findCall?, findCallIn?_isSome_iff]
  constructor
  · rintro ⟨front, back, split, starts, apart⟩
    obtain ⟨blanks, rest, rfl, blank⟩ := startsCall_iff.mp starts
    exact ⟨front, blanks, rest, split, blank, by simpa using apart⟩
  · rintro ⟨front, blanks, rest, split, blank, apart⟩
    exact ⟨front, _, split, startsCall_iff.mpr ⟨blanks, rest, rfl, blank⟩, by simpa using apart⟩

/-! ## The parentheses of a call -/

theorem upToClose?_eq_some {depth : Nat} {quote : Option Char} {cs inside : List Char}
    (found : upToClose? depth quote cs = some inside) : ∃ later, cs = inside ++ ')' :: later := by
  fun_induction upToClose? depth quote cs generalizing inside
  case case1 => cases found
  case case2 => cases found
  case case7 cs _ _ =>
    cases found
    exact ⟨cs, rfl⟩
  all_goals
    rename_i ih
    obtain ⟨r, within, rfl⟩ := Option.map_eq_some_iff.mp found
    obtain ⟨later, rfl⟩ := ih within
    exact ⟨later, rfl⟩

theorem upToClose?_length {depth : Nat} {quote : Option Char} {cs inside : List Char}
    (found : upToClose? depth quote cs = some inside) : inside.length < cs.length := by
  obtain ⟨later, rfl⟩ := upToClose?_eq_some found
  simp

theorem openAfter_append {opening : List Char} (first : '(' ∉ opening) (front tail : List Char) :
    openAfter (front ++ (opening ++ '(' :: tail)) front.length = front.length + opening.length := by
  have others : ∀ c ∈ opening, (decide (c ≠ '(')) = true := by
    intro c member
    rw [decide_eq_true_iff]
    rintro rfl
    exact first member
  rw [openAfter, List.drop_left, List.takeWhile_append_of_pos others, List.takeWhile_cons_of_neg (by simp),
    List.append_nil]

theorem findCall?_bounds {name code : List Char} {position start : Nat}
    (found : findCall? name code position = some start) : position ≤ start ∧ start < code.length := by
  obtain ⟨before, behind, split, rfl, starts, -⟩ := findCallIn?_eq_some found
  obtain ⟨blanks, back, rfl, -⟩ := startsCall_iff.mp starts
  have lengths := congrArg List.length split
  simp only [List.length_drop, List.length_append, List.length_cons] at lengths
  omega

theorem closeOf?_bounds {code : List Char} {start closeAt : Nat}
    (closed : closeOf? code (openAfter code start) = some closeAt) : start < closeAt ∧ closeAt < code.length := by
  obtain ⟨inside, reached, rfl⟩ := Option.map_eq_some_iff.mp closed
  have shorter := upToClose?_length reached
  have opens : start ≤ openAfter code start := Nat.le_add_right _ _
  rw [List.length_drop] at shorter
  omega

/-! ## Resolving calls from a place on -/

section Resolve

variable {name space : List Char}

/-- The number of steps does not matter, as each step passes at least one character. -/
theorem resolveCallsFrom_steps {bound n m position : Nat} {code : List Char}
    (short : code.length - position < bound) (enough : code.length - position < n)
    (enough' : code.length - position < m) :
    resolveCallsFrom name space n position code = resolveCallsFrom name space m position code := by
  induction bound generalizing n m position code with
  | zero => omega
  | succ bound ih =>
    obtain ⟨n, rfl⟩ := Nat.exists_eq_succ_of_ne_zero (Nat.ne_zero_of_lt enough)
    obtain ⟨m, rfl⟩ := Nat.exists_eq_succ_of_ne_zero (Nat.ne_zero_of_lt enough')
    rw [resolveCallsFrom, resolveCallsFrom]
    cases found : findCall? name code position with
    | none => rfl
    | some start =>
      dsimp only
      cases closed : closeOf? code (openAfter code start) with
      | none => rfl
      | some closeAt =>
        obtain ⟨behind, -⟩ := findCall?_bounds found
        obtain ⟨ordered, inside⟩ := closeOf?_bounds closed
        dsimp only
        cases objectBody? ((code.take closeAt).drop (openAfter code start + 1)) with
        | none => exact ih (by omega) (by omega) (by omega)
        | some body =>
          dsimp only
          generalize resolvedCall name space body = resolved
          have length : (code.take start ++ resolved.1 ++ code.drop (closeAt + 1)).length =
              start + resolved.1.length + (code.length - (closeAt + 1)) := by
            rw [List.length_append, List.length_append, List.length_take_of_le (by omega), List.length_drop]
          rw [ih (n := n) (m := m) (by omega) (by omega) (by omega)]

/-- Resolves the calls behind a front of the text. -/
def resolveBehind (name space front back : List Char) : List Char × List Span :=
  resolveCallsFrom name space (back.length + 1) front.length (front ++ back)

theorem resolveCalls_eq (name space code : List Char) :
    resolveCalls name space code = resolveBehind name space [] code := rfl

theorem resolveCallsFrom_eq {n : Nat} {front back : List Char} (enough : back.length < n) :
    resolveCallsFrom name space n front.length (front ++ back) = resolveBehind name space front back := by
  rw [resolveBehind]
  exact resolveCallsFrom_steps (Nat.lt_succ_self _) (by simpa using enough) (by simp)

theorem resolveBehind_nil (front : List Char) : resolveBehind name space front [] = (front, []) := by
  rw [resolveBehind, resolveCallsFrom, findCall?_append]
  simp [findCallIn?]

/-- Text without calls is passed over. -/
theorem resolveBehind_silent {front text : List Char} {rest : List Char}
    (silent : Silent (callRule name) front.getLast? text rest) :
    resolveBehind name space front (text ++ rest) = resolveBehind name space (front ++ text) rest := by
  have short : rest.length < (text ++ rest).length + 1 := by
    rw [List.length_append]
    omega
  have search : findCall? name (front ++ (text ++ rest)) front.length =
      findCall? name (front ++ text ++ rest) (front ++ text).length := by
    rw [findCall?_append, findCall?_append, findCallIn?_silent silent, List.length_append,
      List.getLast?_append, lastOr]
  rw [← resolveCallsFrom_eq short, resolveBehind, resolveCallsFrom, resolveCallsFrom, search, List.append_assoc]

end Resolve

/-! ## A call right behind a front of the text -/

def callText (name gap inside : List Char) : List Char := name ++ (gap ++ '(' :: (inside ++ [')']))

/-- A call of a name stands behind a front of the text, and its closing parenthesis is found. -/
structure CallBehind (name front gap inside rest : List Char) : Prop where
  isName : IsName name
  apart : front.getLast?.any joinsName = false
  blank : gap.all isBlank = true
  closes : upToClose? 0 none (inside ++ ')' :: rest) = some inside

namespace CallBehind

variable {name front gap inside rest : List Char}

theorem text_eq (name front gap inside rest : List Char) :
    front ++ (callText name gap inside ++ rest) = (front ++ name ++ gap ++ ['(']) ++ (inside ++ ')' :: rest) := by
  simp [callText]

theorem find (h : CallBehind name front gap inside rest) :
    findCall? name (front ++ (callText name gap inside ++ rest)) front.length = some front.length := by
  obtain ⟨c, tail, rfl⟩ := List.exists_cons_of_ne_nil h.isName.1
  have starts : startsCall (c :: tail) (callText (c :: tail) gap inside ++ rest) = true :=
    startsCall_iff.mpr ⟨gap, inside ++ ')' :: rest, by simp [callText], List.all_eq_true.mp h.blank⟩
  rw [findCall?_append]
  rw [callText, List.cons_append, List.cons_append] at starts ⊢
  rw [findCallIn?, if_pos]
  rw [h.apart, starts]
  rfl

theorem openAfter_eq (h : CallBehind name front gap inside rest) :
    openAfter (front ++ (callText name gap inside ++ rest)) front.length =
      front.length + name.length + gap.length := by
  have first : '(' ∉ name ++ gap := by
    intro member
    have flat := (List.mem_append.mp member).elim (isFlat_name h.isName _) (isFlat_gap h.blank _)
    exact absurd flat (by decide)
  have shape : callText name gap inside ++ rest = (name ++ gap) ++ '(' :: (inside ++ ')' :: rest) := by
    simp [callText]
  rw [shape, openAfter_append first, List.length_append, Nat.add_assoc]

theorem closeOf?_eq (h : CallBehind name front gap inside rest) :
    closeOf? (front ++ (callText name gap inside ++ rest)) (front.length + name.length + gap.length) =
      some (front.length + name.length + gap.length + 1 + inside.length) := by
  have opens : front.length + name.length + gap.length + 1 = (front ++ name ++ gap ++ ['(']).length := by
    simp only [List.length_append, List.length_cons, List.length_nil]
  rw [closeOf?, text_eq, opens, List.drop_left, h.closes]
  rfl

theorem inside_eq :
    ((front ++ (callText name gap inside ++ rest)).take
        (front.length + name.length + gap.length + 1 + inside.length)).drop
      (front.length + name.length + gap.length + 1) = inside := by
  have opens : front.length + name.length + gap.length + 1 = (front ++ name ++ gap ++ ['(']).length := by
    simp only [List.length_append, List.length_cons, List.length_nil]
  rw [text_eq, opens, List.take_length_add_append, List.drop_left, List.take_left]

theorem behind_eq :
    (front ++ (callText name gap inside ++ rest)).drop
      (front.length + name.length + gap.length + 1 + inside.length + 1) = rest := by
  have whole : front ++ (callText name gap inside ++ rest) = (front ++ callText name gap inside) ++ rest :=
    (List.append_assoc _ _ _).symm
  have length : front.length + name.length + gap.length + 1 + inside.length + 1 =
      (front ++ callText name gap inside).length := by
    simp only [callText, List.length_append, List.length_cons, List.length_nil]
    omega
  rw [whole, length, List.drop_left]

end CallBehind

section Resolve

variable {name space front gap inside rest : List Char}

/-- A call with an object is resolved, and the search goes on behind it. -/
theorem resolveBehind_call (h : CallBehind name front gap inside rest) {body : List Char}
    (object : objectBody? inside = some body) :
    resolveBehind name space front (callText name gap inside ++ rest) =
      let call := resolvedCall name space body
      let later := resolveBehind name space (front ++ call.1) rest
      (later.1, if call.2 then ⟨front.length, front.length + call.1.length⟩ :: later.2 else later.2) := by
  have short : rest.length < (callText name gap inside ++ rest).length := by
    simp only [callText, List.length_append, List.length_cons]
    omega
  rw [resolveBehind, resolveCallsFrom, h.find]
  dsimp only
  rw [h.openAfter_eq, h.closeOf?_eq]
  dsimp only
  rw [CallBehind.inside_eq, object]
  dsimp only
  rw [CallBehind.behind_eq, List.take_left, ← List.length_append, resolveCallsFrom_eq short]

/-- A call without an object is left alone, and so is what it holds. -/
theorem resolveBehind_other (h : CallBehind name front gap inside rest) (object : objectBody? inside = none) :
    resolveBehind name space front (callText name gap inside ++ rest) =
      resolveBehind name space (front ++ (name ++ (gap ++ '(' :: inside))) (')' :: rest) := by
  have short : (')' :: rest).length < (callText name gap inside ++ rest).length := by
    have nonempty := List.length_pos_iff.mpr h.isName.1
    simp only [callText, List.length_append, List.length_cons]
    omega
  have whole : front ++ (callText name gap inside ++ rest) =
      (front ++ (name ++ (gap ++ '(' :: inside))) ++ ')' :: rest := by simp [callText]
  have length : front.length + name.length + gap.length + 1 + inside.length =
      (front ++ (name ++ (gap ++ '(' :: inside))).length := by
    simp only [List.length_append, List.length_cons]
    omega
  rw [resolveBehind, resolveCallsFrom, h.find]
  dsimp only
  rw [h.openAfter_eq, h.closeOf?_eq]
  dsimp only
  rw [CallBehind.inside_eq, object]
  dsimp only
  rw [whole, length, resolveCallsFrom_eq short]

end Resolve

/-! ## The call around a span, from a place on -/

section Enclosing

variable {span : Span} {best : Option (Nat × Nat)} {front gap inside rest : List Char}

theorem enclosingMergeFrom_steps {bound n m position : Nat} {code : List Char}
    (short : code.length - position < bound) (enough : code.length - position < n)
    (enough' : code.length - position < m) :
    enclosingMergeFrom code span n position best = enclosingMergeFrom code span m position best := by
  induction bound generalizing n m position best with
  | zero => omega
  | succ bound ih =>
    obtain ⟨n, rfl⟩ := Nat.exists_eq_succ_of_ne_zero (Nat.ne_zero_of_lt enough)
    obtain ⟨m, rfl⟩ := Nat.exists_eq_succ_of_ne_zero (Nat.ne_zero_of_lt enough')
    rw [enclosingMergeFrom, enclosingMergeFrom]
    cases found : findCall? mergeName code position with
    | none => rfl
    | some call =>
      obtain ⟨behind, within⟩ := findCall?_bounds found
      have opens : call ≤ openAfter code call := Nat.le_add_right _ _
      dsimp only
      rw [ih (n := n) (m := m) (by omega) (by omega) (by omega)]

/-- Looks for the merging call around a span behind a front of the text. -/
def enclosingBehind (span : Span) (front back : List Char) (best : Option (Nat × Nat)) : Option (Nat × Nat) :=
  enclosingMergeFrom (front ++ back) span (back.length + 1) front.length best

theorem enclosingMerge?_eq (code : List Char) (span : Span) :
    enclosingMerge? code span = enclosingBehind span [] code none := rfl

theorem enclosingMergeFrom_eq {n : Nat} {front back : List Char} (enough : back.length < n) :
    enclosingMergeFrom (front ++ back) span n front.length best = enclosingBehind span front back best := by
  rw [enclosingBehind]
  exact enclosingMergeFrom_steps (Nat.lt_succ_self _) (by simpa using enough) (by simp)

theorem enclosingBehind_nil (front : List Char) : enclosingBehind span front [] best = best := by
  rw [enclosingBehind, enclosingMergeFrom, findCall?_append]
  simp [findCallIn?]

/-- No call behind the start of a span is around it. -/
theorem enclosingBehind_of_lt (passed : span.start < front.length) (back : List Char) :
    enclosingBehind span front back best = best := by
  rw [enclosingBehind, enclosingMergeFrom]
  cases found : findCall? mergeName (front ++ back) front.length with
  | none => rfl
  | some call =>
    obtain ⟨behind, -⟩ := findCall?_bounds found
    exact if_pos (by omega)

theorem enclosingBehind_silent {text : List Char}
    (silent : Silent (callRule mergeName) front.getLast? text rest) :
    enclosingBehind span front (text ++ rest) best = enclosingBehind span (front ++ text) rest best := by
  have short : rest.length < (text ++ rest).length + 1 := by
    rw [List.length_append]
    omega
  have search : findCall? mergeName (front ++ (text ++ rest)) front.length =
      findCall? mergeName (front ++ text ++ rest) (front ++ text).length := by
    rw [findCall?_append, findCall?_append, findCallIn?_silent silent, List.length_append,
      List.getLast?_append, lastOr]
  rw [← enclosingMergeFrom_eq short, enclosingBehind, enclosingMergeFrom, enclosingMergeFrom, search,
    List.append_assoc]

/-- A merging call is the innermost one so far exactly if the span stands in it. -/
theorem enclosingBehind_call (h : CallBehind mergeName front gap inside rest)
    (started : front.length ≤ span.start) :
    enclosingBehind span front (callText mergeName gap inside ++ rest) best =
      let openAt := front.length + mergeName.length + gap.length
      enclosingBehind span (front ++ (mergeName ++ (gap ++ ['(']))) (inside ++ ')' :: rest)
        (if span.stop ≤ openAt + 1 + inside.length then some (openAt, openAt + 1 + inside.length) else best) := by
  have short : (inside ++ ')' :: rest).length < (callText mergeName gap inside ++ rest).length := by
    have nonempty := List.length_pos_iff.mpr h.isName.1
    simp only [callText, List.length_append, List.length_cons]
    omega
  have whole : front ++ (callText mergeName gap inside ++ rest) =
      (front ++ (mergeName ++ (gap ++ ['(']))) ++ (inside ++ ')' :: rest) := by simp [callText]
  have length : front.length + mergeName.length + gap.length + 1 = (front ++ (mergeName ++ (gap ++ ['(']))).length := by
    simp only [List.length_append, List.length_cons, List.length_nil]
    omega
  rw [enclosingBehind, enclosingMergeFrom, h.find]
  dsimp only
  rw [if_neg (by omega), h.openAfter_eq, h.closeOf?_eq]
  dsimp only
  rw [whole, length, enclosingMergeFrom_eq short]

end Enclosing

/-! ## Calls in code -/

section Silent

variable {name : List Char}

/-- Text splits in one way into a name and what does not continue it. -/
theorem name_append_inj {s t a b : List Char} (hs : IsName s) (ht : IsName t) (ha : a.head?.any joinsName = false)
    (hb : b.head?.any joinsName = false) (same : s ++ a = t ++ b) : s = t ∧ a = b :=
  append_inj_of_head (List.all_eq_true.mp hs.2) (List.all_eq_true.mp ht.2) ha hb same

theorem blanks_head {blanks back : List Char} (blank : ∀ b ∈ blanks, isBlank b = true) :
    (blanks ++ '(' :: back).head?.any joinsName = false := by
  cases blanks with
  | nil => exact show joinsName '(' = false by decide
  | cons b blanks =>
    cases joined : joinsName b with
    | false => exact joined
    | true => exact absurd (blank b (by simp)) (by simp [isBlank_eq_false_of_joinsName joined])

theorem silent_of_not_joinsName (isName : IsName name) {text : List Char} (free : ∀ c ∈ text, joinsName c = false)
    (previous : Option Char) (rest : List Char) : Silent (callRule name) previous text rest := by
  refine silent_of_forall (fun c member previous cs => ?_) previous rest
  have nothing : startsCall name (c :: cs) = false := by
    by_contra starts
    obtain ⟨blanks, back, same, -⟩ := startsCall_iff.mp (by simpa using starts)
    obtain ⟨d, tail, rfl⟩ := List.exists_cons_of_ne_nil isName.1
    have first := List.all_eq_true.mp isName.2 d (by simp)
    rw [← (List.cons.inj same).1, free c member] at first
    cases first
  simp [callRule, nothing]

/-- A name is no call of a name, unless it is that name with a list behind it. -/
theorem silent_name (isName : IsName name) {t rest : List Char} (isName' : IsName t)
    (stops : rest.head?.any joinsName = false)
    (other : t = name → (rest.dropWhile isBlank).head? ≠ some '(') (previous : Option Char) :
    Silent (callRule name) previous t rest := by
  obtain ⟨c, tail, rfl⟩ := List.exists_cons_of_ne_nil isName'.1
  have joined : ∀ d ∈ c :: tail, joinsName d = true := List.all_eq_true.mp isName'.2
  constructor
  · have nothing : startsCall name (c :: (tail ++ rest)) = false := by
      by_contra starts
      obtain ⟨blanks, back, same, blank⟩ := startsCall_iff.mp (by simpa using starts)
      obtain ⟨whole, rfl⟩ := name_append_inj isName' isName stops (blanks_head blank) same
      have solid : ('(' :: back).head?.any isBlank = false := show isBlank '(' = false by decide
      exact other whole (by rw [dropWhile_append_of_head blank solid]; rfl)
    simp [callRule, nothing]
  · -- behind its first character every place is joined to the name
    have inside : ∀ (d : Char) (t : List Char), joinsName d = true → (∀ x ∈ t, joinsName x = true) →
        Silent (callRule name) (some d) t rest := by
      intro d t joins all
      induction t generalizing d with
      | nil => trivial
      | cons x t ih =>
        exact ⟨by simp [callRule, joins], ih x (all x (by simp)) fun y member => all y (by simp [member])⟩
    exact inside c tail (joined c (by simp)) fun x member => joined x (by simp [member])

/-- A name is found in front of what does not continue one or not at all. -/
theorem after?_append_stop {p : List Char} (joined : ∀ c ∈ p, joinsName c = true) (t : List Char) {rest : List Char}
    (stop : rest.head?.any joinsName = false) : after? p (t ++ rest) = (after? p t).map (· ++ rest) := by
  refine after?_append_of_head (fun c first inside => ?_) t
  rw [Option.mem_def.mp first, Option.any_some, joined c inside] at stop
  cases stop

/-- A call that starts in front of a quote does not reach behind it. -/
theorem startsCall_append_quote (isName : IsName name) {q : Char} (quote : isQuote q = true) (t rest : List Char) :
    startsCall name (t ++ q :: rest) = startsCall name t := by
  have free : joinsName q = false ∧ isBlank q = false ∧ q ≠ '(' := of_isQuote quote (by decide)
  have stop : (q :: rest).head?.any joinsName = false := free.1
  rw [startsCall, startsCall, after?_append_stop (List.all_eq_true.mp isName.2) t stop]
  cases after? name t with
  | none => rfl
  | some r =>
    rw [Option.map_some]
    dsimp only
    rw [List.dropWhile_append]
    cases r.dropWhile isBlank with
    | nil => simp [free]
    | cons c r => rfl

/-- A literal whose contents spell no call holds none. -/
theorem silent_contents (isName : IsName name) {q : Char} (quote : isQuote q = true) {t : List Char}
    (nothing : findCall? name t 0 = none) (rest : List Char) :
    Silent (callRule name) (some q) t (q :: rest) := by
  have unjoined : joinsName q = false := of_isQuote quote (by decide)
  have step (p : Option Char) (t : List Char) (h : Silent (callRule name) p t []) :
      Silent (callRule name) p t (q :: rest) := by
    induction t generalizing p with
    | nil => trivial
    | cons c t ih =>
      refine ⟨?_, ih _ h.2⟩
      have here := h.1
      simp only [callRule, List.append_nil] at here ⊢
      rw [← List.cons_append, startsCall_append_quote isName quote]
      split at here
      · cases here
      · rename_i no
        exact if_neg no
  rw [findCall?, if_pos rfl, List.drop_zero] at nothing
  have start := step none t (silent_of_findCallIn? nothing)
  cases t with
  | nil => trivial
  | cons c t =>
    refine ⟨?_, start.2⟩
    have here := start.1
    simpa only [callRule, Option.any_none, Option.any_some, unjoined] using here

end Silent

namespace Code

variable {P : Char → List Char → Prop} {e : Code}

theorem callBehind (closed : ∀ q t, P q t → Closed q t) {t gap : List Char} {inside : Code} (isName : IsName t)
    (blank : gap.all isBlank = true) (within : inside.Formed P) {front : List Char}
    (apart : front.getLast?.any joinsName = false) (rest : List Char) :
    CallBehind t front gap inside.chars rest where
  isName := isName
  apart := apart
  blank := blank
  closes := by rw [upToClose?_code closed within, upToClose?_closing_last, Option.map_some, List.append_nil]

theorem joinsName_bracket (b : Bracket) : joinsName b.opening = false ∧ joinsName b.closing = false := by
  cases b <;> decide

theorem joinsName_quote {q : Char} (quote : isQuote q = true) : joinsName q = false := of_isQuote quote (by decide)

theorem unjoined_concat {c : Char} (other : joinsName c = false) (front : List Char) :
    (front ++ [c]).getLast?.any joinsName = false := by
  rw [List.getLast?_concat]
  exact other

theorem unjoined_opening (front t gap : List Char) :
    (front ++ (t ++ (gap ++ ['(']))).getLast?.any joinsName = false := by
  rw [← List.append_assoc, ← List.append_assoc]
  exact unjoined_concat (by decide) _

theorem unjoined_callText (front t gap inside : List Char) :
    (front ++ callText t gap inside).getLast?.any joinsName = false := by
  have whole : front ++ callText t gap inside = (front ++ t ++ gap ++ '(' :: inside) ++ [')'] := by simp [callText]
  rw [whole]
  exact unjoined_concat (by decide) _

theorem any_joinsName_head (closed : ∀ q t, P q t → Closed q t) (formed : e.Formed P) :
    e.chars.head?.any joinsName = e.startsName := by
  have named {name : List Char} (h : IsName name) (t : List Char) : (name ++ t).head?.any joinsName = true := by
    obtain ⟨c, front, rfl⟩ := List.exists_cons_of_ne_nil h.1
    exact List.all_eq_true.mp h.2 c (by simp)
  cases e with
  | done => rfl
  | word name rest => exact named formed.1 _
  | call name gap inside rest => exact named formed.1 _
  | group b inside rest => cases b <;> exact show joinsName _ = false by decide
  | literal q t rest => exact joinsName_quote (closed q t formed.1).quote
  | mark c rest => exact formed.1

/-- A text that nothing continues: it is empty or starts with a closing bracket. -/
def Ends (rest : List Char) : Prop := ∀ c ∈ rest.head?, c = ')' ∨ c = ']' ∨ c = '\x7d'

theorem ends_nil : Ends [] := fun _ h => by cases h

theorem ends_closing (b : Bracket) (rest : List Char) : Ends (b.closing :: rest) := by
  rintro c ⟨⟩
  cases b <;> simp [Bracket.closing]

theorem any_joinsName_append (closed : ∀ q t, P q t → Closed q t) (formed : e.Formed P)
    (apart : e.startsName = false) {rest : List Char} (ends : Ends rest) :
    (e.chars ++ rest).head?.any joinsName = false := by
  cases shape : e.chars with
  | nil =>
    cases rest with
    | nil => rfl
    | cons c rest => rcases ends c rfl with rfl | rfl | rfl <;> exact show joinsName _ = false by decide
  | cons c t =>
    have head := any_joinsName_head closed formed
    rw [shape, apart] at head
    exact head

theorem dropWhile_append_head (closed : ∀ q t, P q t → Closed q t) (formed : e.Formed P)
    (apart : e.opensList = false) {rest : List Char} (ends : Ends rest) :
    ((e.chars ++ rest).dropWhile isBlank).head? ≠ some '(' := by
  have solid {c : Char} {t : List Char} (h : isBlank c = false) (other : c ≠ '(') :
      ((c :: t).dropWhile isBlank).head? ≠ some '(' := by
    rw [List.dropWhile_cons_of_neg (by simp [h])]
    simpa using other
  have named {name : List Char} (h : IsName name) (t : List Char) :
      ((name ++ t).dropWhile isBlank).head? ≠ some '(' := by
    obtain ⟨c, front, rfl⟩ := List.exists_cons_of_ne_nil h.1
    have joined := List.all_eq_true.mp h.2 c (by simp)
    refine solid (isBlank_eq_false_of_joinsName joined) ?_
    rintro rfl
    exact absurd joined (by decide)
  induction e with
  | done =>
    rw [chars, List.nil_append]
    cases rest with
    | nil => simp
    | cons c rest => rcases ends c rfl with rfl | rfl | rfl <;> exact solid (by decide) (by decide)
  | word name next => rw [chars, List.append_assoc]; exact named formed.1 _
  | call name gap inside next => rw [chars, List.append_assoc]; exact named formed.1 _
  | group b inside next =>
    cases b with
    | round => cases apart
    | square => exact solid (by decide) (by decide)
    | curly => exact solid (by decide) (by decide)
  | literal q t next =>
    have free : isBlank q = false ∧ q ≠ '(' := of_isQuote (closed q t formed.1).quote (by decide)
    exact solid free.1 free.2
  | mark c next ih =>
    rw [opensList, Bool.and_eq_false_iff] at apart
    rw [chars, List.cons_append]
    cases blank : isBlank c with
    | false =>
      refine solid blank ?_
      rintro rfl
      exact absurd formed.2.1 (by decide)
    | true =>
      rw [List.dropWhile_cons_of_pos blank]
      exact ih formed.2.2 (apart.resolve_left (by simp [blank]))

theorem silent_word (closed : ∀ q t, P q t → Closed q t) {name : List Char} (isName : IsName name) {t : List Char}
    (isName' : IsName t) (formed : e.Formed P) (apart : e.apart = true) {rest : List Char} (ends : Ends rest)
    (previous : Option Char) : Silent (callRule name) previous t (e.chars ++ rest) := by
  rw [Code.apart, Bool.and_eq_true, Bool.not_eq_true', Bool.not_eq_true'] at apart
  exact silent_name isName isName' (any_joinsName_append closed formed apart.1 ends)
    (fun _ => dropWhile_append_head closed formed apart.2 ends) previous

/-- A call of another name is no call, up to its opening parenthesis. -/
theorem silent_call {name t gap : List Char} (isName : IsName name) (isName' : IsName t)
    (blank : gap.all isBlank = true) (other : t ≠ name) (previous : Option Char) (rest : List Char) :
    Silent (callRule name) previous (t ++ (gap ++ ['('])) rest := by
  have free : ∀ c ∈ gap ++ ['('], joinsName c = false := by
    intro c member
    rcases List.mem_append.mp member with inGap | opening
    · cases joined : joinsName c with
      | false => rfl
      | true =>
        have := List.all_eq_true.mp blank c inGap
        rw [isBlank_eq_false_of_joinsName joined] at this
        cases this
    · rw [List.mem_singleton.mp opening]
      decide
  rw [silent_append]
  refine ⟨silent_name isName isName' ?_ (fun same => absurd same other) previous, ?_⟩
  · have head : (gap ++ '(' :: rest).head?.any joinsName = false := blanks_head (List.all_eq_true.mp blank)
    simpa using head
  · exact silent_of_not_joinsName isName free _ _

/-- Between quotes and from quote to quote there is no call if the contents spell none. -/
theorem silent_literal {name : List Char} (isName : IsName name) {q : Char} {t : List Char} (quote : isQuote q = true)
    (nothing : findCall? name t 0 = none) (previous : Option Char) (rest : List Char) :
    Silent (callRule name) previous (q :: (t ++ [q])) rest := by
  have free : ∀ c ∈ [q], joinsName c = false := by simpa using joinsName_quote quote
  have whole : q :: (t ++ [q]) = [q] ++ (t ++ [q]) := rfl
  rw [whole, silent_append, silent_append]
  refine ⟨silent_of_not_joinsName isName free _ _, ?_, silent_of_not_joinsName isName free _ _⟩
  exact silent_contents isName quote nothing rest

end Code

end Recast.ClassExpr
