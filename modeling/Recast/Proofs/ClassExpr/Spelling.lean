import Recast.Proofs.ClassExpr.MergeCall

/-!
# Spelling names for a target

Access to the props object is taken off before variant calls are resolved, and Vue has its own name for the
class prop at the end. Each of this is a replacement in text. None of the texts that are replaced goes over the
end of a name, so in code the names and the contents of literals change one by one and all else stays.
-/

set_option autoImplicit false

namespace Recast.ClassExpr

open Recast.Text

/-! ## Replacing one name -/

section Rename

variable {isJoined runsOn : Char → Bool} {old new : List Char}

def renameOne (isJoined runsOn : Char → Bool) (old new cs : List Char) : List Char :=
  renameFrom isJoined runsOn [(old, new)] 0 none cs

def startsOne (isJoined runsOn : Char → Bool) (old : List Char) (previous : Option Char) (cs : List Char) : Bool :=
  !previous.any isJoined && (after? old cs).any fun rest => !rest.head?.any runsOn

theorem renameFrom_single (nonempty : old ≠ []) (previous : Option Char) (c : Char) (cs : List Char) :
    renameFrom isJoined runsOn [(old, new)] 0 previous (c :: cs) =
      if startsOne isJoined runsOn old previous (c :: cs) then
        new ++ renameFrom isJoined runsOn [(old, new)] (old.length - 1) (some c) cs
      else c :: renameFrom isJoined runsOn [(old, new)] 0 (some c) cs := by
  have test : (decide (old ≠ []) && !previous.any isJoined &&
      (after? old (c :: cs)).any fun rest => !rest.head?.any runsOn) =
      startsOne isJoined runsOn old previous (c :: cs) := by
    rw [decide_eq_true nonempty, Bool.true_and, startsOne]
  rw [renameFrom, List.find?_cons, test]
  cases startsOne isJoined runsOn old previous (c :: cs) <;> rfl

/-- Behind a character that no name has the scan goes on as at the start. -/
theorem renameFrom_other (isName : IsName old) (joins : ∀ c, isJoined c = true → joinsName c = true) {c : Char}
    (other : joinsName c = false) (previous : Option Char) (cs : List Char) :
    renameFrom isJoined runsOn [(old, new)] 0 previous (c :: cs) = c :: renameOne isJoined runsOn old new cs := by
  have unjoined : isJoined c = false := by
    by_contra joined
    rw [joins c (by simpa using joined)] at other
    cases other
  have nowhere : startsOne isJoined runsOn old previous (c :: cs) = false := by
    obtain ⟨d, tail, rfl⟩ := List.exists_cons_of_ne_nil isName.1
    have differs : d ≠ c := by
      rintro rfl
      rw [List.all_eq_true.mp isName.2 d (by simp)] at other
      cases other
    simp [startsOne, after?, differs]
  rw [renameFrom_single isName.1, nowhere, if_neg Bool.false_ne_true]
  cases cs with
  | nil => rw [renameOne, renameFrom, renameFrom]
  | cons d ds =>
    have same : startsOne isJoined runsOn old (some c) (d :: ds) = startsOne isJoined runsOn old none (d :: ds) := by
      simp only [startsOne, Option.any_some, Option.any_none, unjoined]
    rw [renameOne, renameFrom_single isName.1, renameFrom_single isName.1, same]

/-- The scan is cut in front of what does not continue a name. -/
theorem renameFrom_append (isName : IsName old) (joins : ∀ c, isJoined c = true → joinsName c = true)
    (runs : ∀ c, runsOn c = true → joinsName c = true) {skip : Nat} {t : List Char} (within : skip ≤ t.length)
    (previous : Option Char) {rest : List Char} (stop : rest.head?.any joinsName = false) :
    renameFrom isJoined runsOn [(old, new)] skip previous (t ++ rest) =
      renameFrom isJoined runsOn [(old, new)] skip previous t ++ renameOne isJoined runsOn old new rest := by
  have ends : rest.head?.any runsOn = false := by
    cases rest with
    | nil => rfl
    | cons c rest =>
      by_contra goesOn
      have joined : joinsName c = true := runs c (by simpa using goesOn)
      exact absurd (show joinsName c = false from stop) (by simp [joined])
  have same (previous : Option Char) (t : List Char) :
      startsOne isJoined runsOn old previous (t ++ rest) = startsOne isJoined runsOn old previous t := by
    rw [startsOne, startsOne, after?_append_stop (List.all_eq_true.mp isName.2) t stop]
    cases after? old t with
    | none => rfl
    | some r =>
      cases r with
      | nil => simp [ends]
      | cons c r => rfl
  -- a name that starts in `t` ends in it, so what is skipped never reaches into `rest`
  induction t generalizing skip previous with
  | nil =>
    obtain rfl : skip = 0 := by simpa using within
    cases rest with
    | nil => simp [renameOne, renameFrom]
    | cons c rest =>
      rw [List.nil_append, renameFrom_other isName joins stop, renameOne, renameOne,
        renameFrom_other isName joins stop, renameFrom, renameOne, List.nil_append]
  | cons c t ih =>
    cases skip with
    | succ skip => exact ih (by simpa using within) (some c)
    | zero =>
      rw [List.cons_append, renameFrom_single isName.1, renameFrom_single isName.1, ← List.cons_append, same]
      cases here : startsOne isJoined runsOn old previous (c :: t) with
      | false => rw [if_neg Bool.false_ne_true, if_neg Bool.false_ne_true, ih (Nat.zero_le _), List.cons_append]
      | true =>
        have short : old.length - 1 ≤ t.length := by
          obtain ⟨rest, found, -⟩ := (Option.any_eq_true _ _).mp (Bool.and_eq_true_iff.mp here).2
          have lengths := congrArg List.length (after?_eq_some_iff.mp found)
          simp only [List.length_cons, List.length_append] at lengths
          omega
        rw [if_pos rfl, if_pos rfl, ih short, List.append_assoc]

theorem renameFrom_eq_self (nonempty : old ≠ []) {previous : Option Char} {cs : List Char}
    (nowhere : ∀ front back, cs = front ++ (old ++ back) →
      (lastOr previous front).any isJoined = true ∨ back.head?.any runsOn = true) :
    renameFrom isJoined runsOn [(old, new)] 0 previous cs = cs := by
  induction cs generalizing previous with
  | nil => rw [renameFrom]
  | cons c cs ih =>
    have here : startsOne isJoined runsOn old previous (c :: cs) = false := by
      by_contra starts
      obtain ⟨free, found⟩ := Bool.and_eq_true_iff.mp (show startsOne .. = true by simpa using starts)
      obtain ⟨back, behind, stops⟩ := (Option.any_eq_true _ _).mp found
      have whole : c :: cs = old ++ back := after?_eq_some_iff.mp behind
      rcases nowhere [] back whole with joined | runs
      · simp [show previous.any isJoined = true from joined] at free
      · simp [runs] at stops
    rw [renameFrom_single nonempty, here, if_neg Bool.false_ne_true, ih fun front back same => ?_]
    rw [← lastOr_cons previous]
    exact nowhere (c :: front) back (by rw [same, List.cons_append])

end Rename

/-! ## Spellings -/

/-- A way to spell text that does not look over the end of a name. -/
structure Spelling (f : List Char → List Char) : Prop where
  nil : f [] = []
  other : ∀ {c : Char}, joinsName c = false → ∀ cs, f (c :: cs) = c :: f cs
  append : ∀ (t : List Char) {rest : List Char}, rest.head?.any joinsName = false → f (t ++ rest) = f t ++ f rest

namespace Spelling

variable {f g : List Char → List Char}

theorem comp (hf : Spelling f) (hg : Spelling g) : Spelling (f ∘ g) where
  nil := by rw [Function.comp, hg.nil, hf.nil]
  other joined cs := by rw [Function.comp, hg.other joined, hf.other joined, Function.comp]
  append t rest stop := by
    have stop' : (g rest).head?.any joinsName = false := by
      cases rest with
      | nil => rw [hg.nil]; rfl
      | cons c rest => rw [hg.other stop]; exact stop
    rw [Function.comp, hg.append t stop, hf.append _ stop', Function.comp, Function.comp]

theorem of_renameOne {isJoined runsOn : Char → Bool} {old : List Char} (isName : IsName old)
    (joins : ∀ c, isJoined c = true → joinsName c = true) (runs : ∀ c, runsOn c = true → joinsName c = true)
    (new : List Char) : Spelling (renameOne isJoined runsOn old new) where
  nil := by rw [renameOne, renameFrom]
  other joined cs := renameFrom_other isName joins joined none cs
  append t _ stop := renameFrom_append isName joins runs (Nat.zero_le _) none stop

theorem others (hf : Spelling f) {t : List Char} (free : ∀ c ∈ t, joinsName c = false) (rest : List Char) :
    f (t ++ rest) = t ++ f rest := by
  induction t with
  | nil => rfl
  | cons c t ih =>
    rw [List.cons_append, hf.other (free c (by simp)), ih fun d member => free d (by simp [member]), List.cons_append]

/-- Text in front of a character that no name has is spelled by itself. -/
theorem append_cons (hf : Spelling f) (t : List Char) {c : Char} (other : joinsName c = false) (rest : List Char) :
    f (t ++ c :: rest) = f t ++ c :: f rest := by
  have stop : (c :: rest).head?.any joinsName = false := other
  rw [hf.append t stop, hf.other other]

end Spelling

theorem joinsName_of_isWord {c : Char} (h : isWord c = true) : joinsName c = true := by simp [joinsName, h]

theorem spelling_classToProps : Spelling classToProps :=
  .of_renameOne (by decide) (fun _ h => h) (fun _ => joinsName_of_isWord) _

theorem stripPropsAccessChars_eq (cs : List Char) :
    stripPropsAccessChars cs = renameOne isWord (fun _ => false) "props.".toList [] cs := by
  have step (skip : Nat) (previous : Option Char) (cs : List Char) : dropPropsFrom skip previous cs =
      renameFrom isWord (fun _ => false) [("props.".toList, [])] skip previous cs := by
    induction cs generalizing skip previous with
    | nil => rw [dropPropsFrom, renameFrom]
    | cons c cs ih =>
      cases skip with
      | succ skip => exact ih skip (some c)
      | zero =>
        have test : (!previous.any isWord && (after? "props.".toList (c :: cs)).isSome) =
            startsOne isWord (fun _ => false) "props.".toList previous (c :: cs) := by
          rw [startsOne]
          cases after? "props.".toList (c :: cs) <;> simp
        rw [dropPropsFrom, renameFrom_single (by decide), test, ih, ih]
        rfl
  exact step 0 none cs

theorem spelling_stripPropsAccessChars : Spelling stripPropsAccessChars := by
  rw [funext stripPropsAccessChars_eq]
  exact .of_renameOne (by decide) (fun _ => joinsName_of_isWord) (fun _ h => by cases h) _

theorem replaceChars_eq {p : List Char} (nonempty : p ≠ []) (new cs : List Char) :
    replaceChars p new cs = renameOne (fun _ => false) (fun _ => false) p new cs := by
  have step (skip : Nat) (previous : Option Char) (cs : List Char) : replaceFrom p new skip cs =
      renameFrom (fun _ => false) (fun _ => false) [(p, new)] skip previous cs := by
    induction cs generalizing skip previous with
    | nil => rw [replaceFrom, renameFrom]
    | cons c cs ih =>
      cases skip with
      | succ skip => exact ih skip (some c)
      | zero =>
        rw [replaceFrom, renameFrom_single nonempty, startsOne, ← ih, ← ih]
        cases after? p (c :: cs) <;> simp
  rw [replaceChars, if_neg nonempty]
  exact step 0 none cs

theorem spelling_replaceChars {p : List Char} (isName : IsName p) (new : List Char) :
    Spelling (replaceChars p new) := by
  rw [funext (replaceChars_eq isName.1 new)]
  exact .of_renameOne isName (fun _ h => by cases h) (fun _ h => by cases h) _

/-! ## Spelling code -/

namespace Code

/-- Code with its names and the contents of its literals spelled in another way. -/
def spelled (f : List Char → List Char) : Code → Code
  | done => done
  | word name rest => word (f name) (rest.spelled f)
  | call name gap inside rest => call (f name) gap (inside.spelled f) (rest.spelled f)
  | group b inside rest => group b (inside.spelled f) (rest.spelled f)
  | literal q contents rest => literal q (f contents) (rest.spelled f)
  | mark c rest => mark c (rest.spelled f)

variable {P : Char → List Char → Prop} {e : Code} {f : List Char → List Char}

/-- Spelling the text of code gives the text of the code spelled. -/
theorem chars_spelled (spelling : Spelling f) (closed : ∀ q t, P q t → Closed q t) (formed : e.Formed P) :
    f e.chars = (e.spelled f).chars := by
  induction e with
  | done => exact spelling.nil
  | word name rest ih =>
    obtain ⟨-, apart, behind⟩ := formed
    rw [Code.apart, Bool.and_eq_true, Bool.not_eq_true', ← any_joinsName_head closed behind] at apart
    rw [chars, spelling.append name apart.1, ih behind, spelled, chars]
  | call name gap inside rest ihInside ih =>
    obtain ⟨-, blank, within, behind⟩ := formed
    have free : ∀ c ∈ gap, joinsName c = false := by
      intro c member
      by_contra joined
      have here := List.all_eq_true.mp blank c member
      rw [isBlank_eq_false_of_joinsName (by simpa using joined)] at here
      cases here
    rw [chars, spelling.append name (blanks_head (List.all_eq_true.mp blank)), spelling.others free,
      spelling.other (by decide), spelling.append_cons _ (by decide), ihInside within, ih behind, spelled, chars]
  | group b inside rest ihInside ih =>
    have brackets := joinsName_bracket b
    rw [chars, spelling.other brackets.1, spelling.append_cons _ brackets.2, ihInside formed.1, ih formed.2, spelled,
      chars]
  | literal q t rest ih =>
    have quote := joinsName_quote (closed q t formed.1).quote
    rw [chars, spelling.other quote, spelling.append_cons _ quote, ih formed.2, spelled, chars]
  | mark c rest ih => rw [chars, spelling.other formed.1, ih formed.2.2, spelled, chars]

end Code

end Recast.ClassExpr
