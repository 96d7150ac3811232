import Recast.Analysis.Markup
import Recast.Proofs.Text.Lines
import Recast.Proofs.Text.Substitution

/-!
# Text between tags

React trims the rows of a text between tags and joins what is left of them: blanks survive inside a row,
in front of the first and behind the last one. The reader joins the words of each row and decides about
blanks at its ends by looking at them. Both show the same, once blanks in a row count as one.
-/

set_option autoImplicit false

namespace Recast.Analysis

open Recast.Text

/-! ## The rule -/

/-- The rows of a text. A line feed ends one, and so does a carriage return, alone or in front of it. -/
def rowsOf : List Char → List (List Char)
  | [] => [[]]
  | '\r' :: '\n' :: rest => [] :: rowsOf rest
  | c :: rest => if c = '\n' ∨ c = '\r' then [] :: rowsOf rest else pushWord c (rowsOf rest)

def untabbed (c : Char) : Char := if c = '\t' then ' ' else c

/-- A row without leading blanks unless it is the first, and without blanks behind it unless it is the
last, with spaces for tabs. -/
def trimmedRow (isFirst isLast : Bool) (row : List Char) : List Char :=
  let row := if isFirst then row else row.dropWhile isIndent
  let row := if isLast then row else dropEndWhile isIndent row
  row.map untabbed

/-- The rows of a text that are left when they are trimmed, with a space between them. -/
def joinedRows (raw : List Char) : List Char :=
  let rows := rowsOf raw
  joinChars [' ']
    ((rows.mapIdx fun i row => trimmedRow (i == 0) (i + 1 == rows.length) row).filter (· ≠ []))

/-- Takes one space for each run of spaces. -/
def squeeze : List Char → List Char
  | [] => []
  | c :: rest => if c = ' ' ∧ rest.head? = some ' ' then squeeze rest else c :: squeeze rest

/-- Every blank is a space, a tab, a line feed or a carriage return in front of one. -/
def OrdinaryBlanks : List Char → Prop
  | [] => True
  | c :: rest =>
    (isBlank c = true → c = ' ' ∨ c = '\t' ∨ c = '\n' ∨ c = '\r' ∧ rest.head? = some '\n') ∧
      OrdinaryBlanks rest

instance decidableOrdinaryBlanks : (raw : List Char) → Decidable (OrdinaryBlanks raw)
  | [] => isTrue trivial
  | _ :: rest =>
    have := decidableOrdinaryBlanks rest
    inferInstanceAs (Decidable (_ ∧ _))

/-! ## Rows -/

/-- Every blank is a space or a tab. -/
def IsRow (row : List Char) : Prop := ∀ c ∈ row, isBlank c = true → isIndent c = true

theorem isIndent_iff {c : Char} : isIndent c = true ↔ c = ' ' ∨ c = '\t' := by
  simp [isIndent]

theorem isBlank_of_isIndent {c : Char} (h : isIndent c = true) : isBlank c = true := by
  rcases isIndent_iff.mp h with rfl | rfl <;> decide

theorem rowsOf_ne_nil (raw : List Char) : rowsOf raw ≠ [] := by
  fun_induction rowsOf raw with
  | case1 | case2 | case3 => simp
  | case4 c rest _ _ ih =>
    obtain ⟨row, rows, shape⟩ := List.exists_cons_of_ne_nil ih
    rw [shape]
    exact List.cons_ne_nil _ _

theorem replaceFrom_returns_cons {c : Char} {rest : List Char}
    (h : ∀ more, c = '\r' → rest ≠ '\n' :: more) :
    replaceFrom ['\r', '\n'] ['\n'] 0 (c :: rest) = c :: replaceFrom ['\r', '\n'] ['\n'] 0 rest := by
  have nothing : after? ['\r', '\n'] (c :: rest) = none := by
    by_contra found
    obtain ⟨more, found⟩ := Option.ne_none_iff_exists'.mp found
    have shape := after?_eq_some_iff.mp found
    simp only [List.cons_append, List.nil_append, List.cons.injEq] at shape
    exact h more shape.1 shape.2
  simp only [replaceFrom, nothing]

/-- The reader finds the rows of a text. -/
theorem splitChar_replaceChars {raw : List Char} (ordinary : OrdinaryBlanks raw) :
    splitChar '\n' (replaceChars ['\r', '\n'] ['\n'] raw) = rowsOf raw ∧
      ∀ row ∈ rowsOf raw, IsRow row := by
  rw [replaceChars, if_neg (by simp)]
  fun_induction rowsOf raw with
  | case1 => exact ⟨rfl, by simp [IsRow]⟩
  | case2 rest ih =>
    obtain ⟨split, rows⟩ := ih ordinary.2.2
    have step : replaceFrom ['\r', '\n'] ['\n'] 0 ('\r' :: '\n' :: rest) =
        '\n' :: replaceFrom ['\r', '\n'] ['\n'] 0 rest := rfl
    rw [step, splitChar, if_pos rfl, split]
    exact ⟨rfl, List.forall_mem_cons.mpr ⟨by simp [IsRow], rows⟩⟩
  | case3 c rest single ends ih =>
    obtain ⟨split, rows⟩ := ih ordinary.2
    -- a carriage return would have its line feed behind it, and both would have been read as one
    have feed : c = '\n' := by
      refine ends.resolve_right fun isReturn => ?_
      subst isReturn
      obtain ⟨more, shape⟩ : ∃ more, rest = '\n' :: more := by
        have next : rest.head? = some '\n' := by simpa using ordinary.1 (by decide)
        exact List.head?_eq_some_iff.mp next
      exact single more rfl shape
    subst feed
    rw [replaceFrom_returns_cons (by simp), splitChar, if_pos rfl, split]
    exact ⟨rfl, List.forall_mem_cons.mpr ⟨by simp [IsRow], rows⟩⟩
  | case4 c rest single inside ih =>
    obtain ⟨split, rows⟩ := ih ordinary.2
    rw [not_or] at inside
    obtain ⟨row, more, shape⟩ := List.exists_cons_of_ne_nil (rowsOf_ne_nil rest)
    rw [replaceFrom_returns_cons fun _ isReturn => absurd isReturn inside.2, splitChar, if_neg inside.1, split,
      shape]
    rw [shape] at rows
    refine ⟨rfl, List.forall_mem_cons.mpr ⟨?_, (List.forall_mem_cons.mp rows).2⟩⟩
    rw [IsRow, List.forall_mem_cons]
    refine ⟨fun blank => isIndent_iff.mpr ?_, (List.forall_mem_cons.mp rows).1⟩
    simpa [inside.1, inside.2] using ordinary.1 blank

/-- The rows by their places, trimmed one after the other. -/
def trimmedRows (isFirst : Bool) : List (List Char) → List (List Char)
  | [] => []
  | [row] => [trimmedRow isFirst true row]
  | row :: rest => trimmedRow isFirst false row :: trimmedRows false rest

theorem mapIdx_trimmedRow (isFirst : Bool) (rows : List (List Char)) :
    (rows.mapIdx fun i row => trimmedRow (isFirst && i == 0) (i + 1 == rows.length) row) =
      trimmedRows isFirst rows := by
  fun_induction trimmedRows isFirst rows with
  | case1 => rfl
  | case2 => simp
  | case3 isFirst row rest more ih =>
    have later : (rest.length == 0) = false := by simpa using more
    rw [← ih, List.mapIdx_cons]
    simp [later]

/-! ## Words -/

/-- The words of a row with a space between them. -/
def joinedWords (row : List Char) : List Char := joinChars [' '] (wordsChars row)

section Words

variable {c : Char} {row rest : List Char}

theorem joinedWords_cons_of_blank (blank : isBlank c = true) : joinedWords (c :: rest) = joinedWords rest := by
  simp [joinedWords, wordsChars, wordsFrom, blank]

theorem joinedWords_of_blank (blank : ∀ c ∈ row, isBlank c = true) : joinedWords row = [] := by
  induction row with
  | nil => rfl
  | cons c row ih =>
    rw [joinedWords_cons_of_blank (blank c (by simp)), ih fun d member => blank d (by simp [member])]

theorem wordsFrom_ne_nil (row : List Char) : wordsFrom row ≠ [] := by
  induction row with
  | nil => simp [wordsFrom]
  | cons c row ih =>
    obtain ⟨word, words, shape⟩ := List.exists_cons_of_ne_nil ih
    rw [wordsFrom, shape]
    split <;> simp [pushWord]

theorem joinedWords_eq_nil_iff : joinedWords row = [] ↔ wordsChars row = [] := by
  refine ⟨fun empty => ?_, fun none => by rw [joinedWords, none, joinChars]⟩
  cases words : wordsChars row with
  | nil => rfl
  | cons word others =>
    have nonempty : word ≠ [] := by
      have member : word ∈ wordsChars row := by simp [words]
      simpa using (List.mem_filter.mp member).2
    rw [joinedWords, words] at empty
    cases others <;> simp_all [joinChars]

theorem joinedWords_cons_of_shown (shown : isBlank c = false) :
    joinedWords (c :: rest) =
      c :: ((if rest.head?.any isBlank ∧ joinedWords rest ≠ [] then [' '] else []) ++
        joinedWords rest) := by
  cases rest with
  | nil => simp [joinedWords, wordsChars, wordsFrom, shown, pushWord, joinChars]
  | cons d more =>
    cases blank : isBlank d with
    | true =>
      have words : wordsChars (c :: d :: more) = [c] :: wordsChars more := by
        simp [wordsChars, wordsFrom, shown, blank, pushWord]
      rw [joinedWords_cons_of_blank blank, joinedWords, words]
      by_cases none : wordsChars more = []
      · simp [none, joinChars, joinedWords]
      · have more' : joinedWords more ≠ [] := fun empty => none (joinedWords_eq_nil_iff.mp empty)
        rw [joinChars_cons_of_ne_nil none, if_pos ⟨blank, more'⟩]
        rfl
    | false =>
      obtain ⟨word, others, first⟩ : ∃ word others, wordsChars (d :: more) = (d :: word) :: others ∧
          wordsChars (c :: d :: more) = (c :: d :: word) :: others := by
        obtain ⟨word, words, shape⟩ := List.exists_cons_of_ne_nil (wordsFrom_ne_nil more)
        exact ⟨word, words.filter (· ≠ []),
          by simp [wordsChars, wordsFrom, shown, blank, shape, pushWord]⟩
      rw [joinedWords, joinedWords, first.1, first.2, if_neg (by simp [blank])]
      cases others <;> rfl

theorem joinedWords_ne_nil (member : c ∈ row) (shown : isBlank c = false) : joinedWords row ≠ [] := by
  induction row with
  | nil => cases member
  | cons d row ih =>
    cases blank : isBlank d with
    | false =>
      rw [joinedWords_cons_of_shown blank]
      exact List.cons_ne_nil _ _
    | true =>
      rw [joinedWords_cons_of_blank blank]
      refine ih ((List.mem_cons.mp member).resolve_left fun same => ?_)
      rw [same, blank] at shown
      cases shown

theorem joinedWords_append_of_blank {blanks : List Char} (blank : ∀ c ∈ blanks, isBlank c = true)
    (row : List Char) : joinedWords (blanks ++ row) = joinedWords row := by
  induction blanks with
  | nil => rfl
  | cons c blanks ih =>
    rw [List.cons_append, joinedWords_cons_of_blank (blank c (by simp)),
      ih fun d member => blank d (by simp [member])]

theorem joinedWords_append_blanks (row : List Char) {blanks : List Char}
    (blank : ∀ c ∈ blanks, isBlank c = true) : joinedWords (row ++ blanks) = joinedWords row := by
  induction row with
  | nil => exact joinedWords_of_blank blank
  | cons c row ih =>
    rw [List.cons_append]
    cases here : isBlank c with
    | true => rw [joinedWords_cons_of_blank here, joinedWords_cons_of_blank here, ih]
    | false =>
      rw [joinedWords_cons_of_shown here, joinedWords_cons_of_shown here, ih]
      cases row with
      | nil => simp [joinedWords_of_blank]
      | cons d row => rfl

end Words

/-! ## Squeezing -/

theorem squeeze_cons_of_run {rest : List Char} (next : rest.head? = some ' ') :
    squeeze (' ' :: rest) = squeeze rest := by
  rw [squeeze, if_pos ⟨rfl, next⟩]

theorem squeeze_cons_of_kept {c : Char} {rest : List Char} (kept : ¬ (c = ' ' ∧ rest.head? = some ' ')) :
    squeeze (c :: rest) = c :: squeeze rest := by
  rw [squeeze, if_neg kept]

theorem squeeze_append {front back : List Char}
    (apart : front.getLast? = some ' ' → back.head? ≠ some ' ') :
    squeeze (front ++ back) = squeeze front ++ squeeze back := by
  induction front with
  | nil => rfl
  | cons c front ih =>
    cases front with
    | nil =>
      have kept : ¬ (c = ' ' ∧ back.head? = some ' ') := fun both => apart (by simp [both.1]) both.2
      rw [List.singleton_append, squeeze_cons_of_kept kept, squeeze_cons_of_kept (by simp)]
      rfl
    | cons d front =>
      -- a run inside of `front` is squeezed the same, whatever follows
      have later := ih (by simpa using apart)
      rw [List.cons_append]
      by_cases run : c = ' ' ∧ d = ' '
      · obtain ⟨rfl, rfl⟩ := run
        rw [squeeze_cons_of_run rfl, squeeze_cons_of_run rfl, later]
      · rw [squeeze_cons_of_kept (by simpa using run), squeeze_cons_of_kept (by simpa using run), later]
        rfl

theorem getLast?_squeeze (cs : List Char) : (squeeze cs).getLast? = cs.getLast? := by
  induction cs with
  | nil => rfl
  | cons c cs ih =>
    rw [squeeze]
    cases cs with
    | nil => simp [squeeze]
    | cons d cs =>
      rw [List.getLast?_cons_cons, ← ih]
      split
      · rfl
      · have nonempty : squeeze (d :: cs) ≠ [] := by
          intro empty
          rw [empty, List.getLast?_cons] at ih
          cases ih
        exact List.getLast?_cons_of_ne_nil nonempty

theorem untabbed_of_shown {c : Char} (shown : isBlank c = false) : untabbed c = c := by
  have other : c ≠ '\t' := fun tab => by
    rw [tab] at shown
    exact absurd shown (by decide)
  rw [untabbed, if_neg other]

theorem untabbed_eq_space_iff {c : Char} : untabbed c = ' ' ↔ isIndent c = true := by
  rw [isIndent_iff, untabbed]
  split <;> simp_all

theorem untabbed_of_indent {c : Char} (indent : isIndent c = true) : untabbed c = ' ' :=
  untabbed_eq_space_iff.mpr indent

theorem map_untabbed_ne {c : Option Char} (other : c.any isIndent = false) : c.map untabbed ≠ some ' ' := by
  cases c with
  | none => simp
  | some c =>
    rw [Option.any_some] at other
    simp [untabbed_eq_space_iff, other]

theorem mem_squeeze {c : Char} {cs : List Char} (member : c ∈ cs) : c ∈ squeeze cs := by
  induction cs with
  | nil => cases member
  | cons d cs ih =>
    by_cases run : d = ' ' ∧ cs.head? = some ' '
    · obtain ⟨rfl, next⟩ := run
      rw [squeeze_cons_of_run next]
      rcases List.mem_cons.mp member with rfl | later
      · exact ih (List.mem_of_head? next)
      · exact ih later
    · rw [squeeze_cons_of_kept run, List.mem_cons]
      exact (List.mem_cons.mp member).imp_right ih

theorem squeeze_indent {row : List Char} (indent : ∀ c ∈ row, isIndent c = true) :
    squeeze (row.map untabbed) = if row = [] then [] else [' '] := by
  induction row with
  | nil => rfl
  | cons c row ih =>
    have later := ih fun d member => indent d (by simp [member])
    rw [List.map_cons, squeeze, later, untabbed_of_indent (indent c (by simp))]
    cases row with
    | nil => rfl
    | cons d row => simp [untabbed_of_indent (indent d (by simp))]

/-- Squeezing a row leaves its words, if it ends with one. -/
theorem squeeze_eq_joinedWords {row : List Char} (isRow : IsRow row) (ends : row.getLast?.any isBlank = false) :
    squeeze (row.map untabbed) = (if row.head?.any isBlank then [' '] else []) ++ joinedWords row := by
  induction row with
  | nil => rfl
  | cons c row ih =>
    cases row with
    | nil =>
      have shown : isBlank c = false := by simpa using ends
      rw [joinedWords_cons_of_shown shown]
      simp [squeeze, shown, untabbed_of_shown shown, joinedWords_of_blank]
    | cons d more =>
      have later := ih (fun e member => isRow e (by simp [member])) (by simpa using ends)
      have words : joinedWords (d :: more) ≠ [] := by
        obtain ⟨last, at'⟩ : ∃ last, (d :: more).getLast? = some last := ⟨_, List.getLast?_cons⟩
        rw [List.getLast?_cons_cons, at'] at ends
        exact joinedWords_ne_nil (List.mem_of_getLast? at') ends
      have space (blank : isBlank d = true) : untabbed d = ' ' := untabbed_of_indent (isRow d (by simp) blank)
      have solid (shown : isBlank d = false) : untabbed d ≠ ' ' := fun isSpace => by
        rw [isBlank_of_isIndent (untabbed_eq_space_iff.mp isSpace)] at shown
        cases shown
      rw [List.map_cons, squeeze, later]
      -- only the last blank of a run stays, and it stands for the space in front of the next word
      cases here : isBlank c with
      | true =>
        rw [joinedWords_cons_of_blank here, untabbed_of_indent (isRow c (by simp) here)]
        cases next : isBlank d with
        | true => simp [space next, next, here]
        | false => simp [solid next, next, here]
      | false =>
        have other : c ≠ ' ' := by
          rintro rfl
          exact absurd here (by decide)
        rw [joinedWords_cons_of_shown here, untabbed_of_shown here]
        cases next : isBlank d <;> simp [other, here, next, words]

/-! ## One row -/

/-- A row with the blanks at its ends apart from what stands between its first and its last word. -/
structure Parted (row front core back : List Char) : Prop where
  whole : row = front ++ (core ++ back)
  indentFront : ∀ c ∈ front, isIndent c = true
  indentBack : ∀ c ∈ back, isIndent c = true
  isRow : IsRow core
  nonempty : core ≠ []
  starts : core.head?.any isBlank = false
  ends : core.getLast?.any isBlank = false

theorem exists_parted {row : List Char} (isRow : IsRow row) {c : Char} (member : c ∈ row)
    (shown : isBlank c = false) : ∃ front core back, Parted row front core back := by
  obtain ⟨front, blankFront, rest, whole, starts⟩ : ∃ front, (∀ d ∈ front, isBlank d = true) ∧
      ∃ rest, row = front ++ rest ∧ rest.dropWhile isBlank = rest :=
    ⟨row.takeWhile isBlank, fun d => List.mem_takeWhile_imp, row.dropWhile isBlank,
      List.takeWhile_append_dropWhile.symm, List.dropWhile_idempotent isBlank row⟩
  obtain ⟨core, back, blankBack, split, ends⟩ : ∃ core back, (∀ d ∈ back, isBlank d = true) ∧
      rest = core ++ back ∧ dropEndWhile isBlank core = core :=
    ⟨rest.rdropWhile isBlank, rest.rtakeWhile isBlank, fun d => List.mem_rtakeWhile_imp,
      List.rdropWhile_append_rtakeWhile.symm, List.rdropWhile_idempotent isBlank rest⟩
  subst split
  subst whole
  refine ⟨front, core, back, rfl, fun d inside => isRow d (by simp [inside]) (blankFront d inside),
    fun d inside => isRow d (by simp [inside]) (blankBack d inside),
    fun d inside => isRow d (by simp [inside]), ?_,
    dropWhile_eq_self_iff_head.mp (dropWhile_of_isPrefix (List.prefix_append core back) starts),
    dropEndWhile_eq_self_iff_getLast.mp ends⟩
  rintro rfl
  have blank : isBlank c = true := by
    rcases List.mem_append.mp member with inside | inside
    · exact blankFront c inside
    · exact blankBack c inside
  rw [blank] at shown
  cases shown

section Row

variable {row front core back : List Char} {isFirst isLast : Bool}

theorem any_isIndent_of_any_isBlank {c : Option Char} (shown : c.any isBlank = false) :
    c.any isIndent = false := by
  cases c with
  | none => rfl
  | some c =>
    rw [Option.any_some] at shown ⊢
    by_contra indent
    rw [isBlank_of_isIndent (by simpa using indent)] at shown
    cases shown

theorem dropEndWhile_append_of_getLast {p : Char → Bool} {front back : List Char}
    (stop : front.getLast?.any p = false) (all : ∀ c ∈ back, p c = true) :
    dropEndWhile p (front ++ back) = front := by
  rw [dropEndWhile_append_of_eq_nil (dropEndWhile_eq_nil_of_all all), dropEndWhile_eq_self_iff_getLast.mpr stop]

theorem Parted.trimmedRow_eq (parted : Parted row front core back) (isFirst isLast : Bool) :
    trimmedRow isFirst isLast row =
      ((if isFirst then front else []) ++ (core ++ if isLast then back else [])).map untabbed := by
  have starts : (core ++ back).head?.any isIndent = false := by
    rw [List.head?_append_of_ne_nil _ parted.nonempty]
    exact any_isIndent_of_any_isBlank parted.starts
  have ends (more : List Char) : (more ++ core).getLast?.any isIndent = false := by
    rw [List.getLast?_append_of_ne_nil _ parted.nonempty]
    exact any_isIndent_of_any_isBlank parted.ends
  have trimmedFront : (front ++ (core ++ back)).dropWhile isIndent = core ++ back :=
    dropWhile_append_of_head parted.indentFront starts
  have trimmedBack (more : List Char) : dropEndWhile isIndent (more ++ (core ++ back)) = more ++ core := by
    rw [← List.append_assoc]
    exact dropEndWhile_append_of_getLast (ends more) parted.indentBack
  rw [trimmedRow, parted.whole]
  cases isFirst <;> cases isLast <;>
    simp only [Bool.false_eq_true, if_false, if_true, trimmedFront, List.nil_append, List.append_nil]
  · rw [show dropEndWhile isIndent (core ++ back) = core from trimmedBack []]
  · rw [trimmedBack]

theorem Parted.joinedWords_eq (parted : Parted row front core back) :
    joinedWords row = joinedWords core := by
  have blankFront (c) (member : c ∈ front) := isBlank_of_isIndent (parted.indentFront c member)
  have blankBack (c) (member : c ∈ back) := isBlank_of_isIndent (parted.indentBack c member)
  rw [parted.whole, joinedWords_append_of_blank blankFront, joinedWords_append_blanks core blankBack]

theorem Parted.squeeze_core (parted : Parted row front core back) :
    squeeze (core.map untabbed) = joinedWords row := by
  rw [parted.joinedWords_eq, squeeze_eq_joinedWords parted.isRow parted.ends, parted.starts]
  rfl

/-- Squeezing a trimmed row leaves its words, and a space for the blanks that trimming leaves at its ends. -/
theorem Parted.squeeze_trimmedRow (parted : Parted row front core back) (isFirst isLast : Bool) :
    squeeze (trimmedRow isFirst isLast row) =
      (if isFirst = true ∧ front ≠ [] then [' '] else []) ++
        (joinedWords row ++ if isLast = true ∧ back ≠ [] then [' '] else []) := by
  have ends : (core.map untabbed).getLast? ≠ some ' ' := by
    rw [List.getLast?_map]
    exact map_untabbed_ne (any_isIndent_of_any_isBlank parted.ends)
  have starts (more : List Char) : (core.map untabbed ++ more).head? ≠ some ' ' := by
    rw [List.head?_append_of_ne_nil _ (by simpa using parted.nonempty), List.head?_map]
    exact map_untabbed_ne (any_isIndent_of_any_isBlank parted.starts)
  have indent (side : Bool) {blanks : List Char} (all : ∀ c ∈ blanks, isIndent c = true) :
      squeeze ((if side then blanks else []).map untabbed) =
        if side = true ∧ blanks ≠ [] then [' '] else [] := by
    cases side with
    | false => simp [squeeze]
    | true => simp [squeeze_indent all, ite_not]
  rw [parted.trimmedRow_eq, List.map_append, List.map_append, squeeze_append fun _ => starts _,
    squeeze_append fun last => absurd last ends, parted.squeeze_core, indent isFirst parted.indentFront,
    indent isLast parted.indentBack]

theorem Parted.head?_any (parted : Parted row front core back) : row.head?.any isBlank = !front.isEmpty := by
  rw [parted.whole]
  cases front with
  | nil =>
    rw [List.nil_append, List.head?_append_of_ne_nil _ parted.nonempty, parted.starts]
    rfl
  | cons c front => exact isBlank_of_isIndent (parted.indentFront c (by simp))

theorem Parted.getLast?_any (parted : Parted row front core back) :
    row.getLast?.any isBlank = !back.isEmpty := by
  rw [parted.whole, List.getLast?_append_of_ne_nil _ (by simp [parted.nonempty])]
  rcases List.eq_nil_or_concat back with rfl | ⟨back, c, rfl⟩
  · rw [List.append_nil, parted.ends]
    rfl
  · have blank := isBlank_of_isIndent (parted.indentBack c (by simp))
    simp [blank]

/-- The reader of rows finds the same in a row that shows something. -/
theorem Parted.textLine_eq (parted : Parted row front core back) (isFirst isLast : Bool) :
    textLine isFirst isLast row = squeeze (trimmedRow isFirst isLast row) := by
  have last : (joinedWords row).getLast? ≠ some ' ' := by
    rw [← parted.squeeze_core, getLast?_squeeze, List.getLast?_map]
    exact map_untabbed_ne (any_isIndent_of_any_isBlank parted.ends)
  have nonempty : joinedWords row ≠ [] := by
    rw [parted.joinedWords_eq]
    obtain ⟨c, more, shape⟩ := List.exists_cons_of_ne_nil parted.nonempty
    have shown : isBlank c = false := by simpa [shape] using parted.starts
    exact joinedWords_ne_nil (by simp [shape]) shown
  have behind : (' ' :: joinedWords row).getLast? = (joinedWords row).getLast? :=
    List.getLast?_cons_of_ne_nil nonempty
  rw [parted.squeeze_trimmedRow, textLine, parted.head?_any, parted.getLast?_any, ← joinedWords]
  cases isFirst <;> cases isLast <;> cases front <;> cases back <;> simp [last, behind]

theorem Parted.textLine_shows (parted : Parted row front core back) (isFirst isLast : Bool) :
    ∃ c ∈ textLine isFirst isLast row, isBlank c = false := by
  obtain ⟨c, more, shape⟩ := List.exists_cons_of_ne_nil parted.nonempty
  have shown : isBlank c = false := by simpa [shape] using parted.starts
  refine ⟨c, ?_, shown⟩
  rw [parted.textLine_eq]
  refine mem_squeeze ?_
  rw [parted.trimmedRow_eq]
  exact List.mem_map.mpr ⟨c, by simp [shape], untabbed_of_shown shown⟩

theorem blank_or_parted (isRow : IsRow row) :
    (∀ c ∈ row, isIndent c = true) ∨ ∃ front core back, Parted row front core back := by
  by_cases blank : ∀ c ∈ row, isBlank c = true
  · exact .inl fun c member => isRow c member (blank c member)
  · simp only [not_forall, Bool.not_eq_true] at blank
    obtain ⟨c, member, shown⟩ := blank
    exact .inr (exists_parted isRow member shown)

theorem textLine_of_indent (indent : ∀ c ∈ row, isIndent c = true) (isFirst isLast : Bool) :
    ∀ c ∈ textLine isFirst isLast row, c = ' ' := by
  have words : joinedWords row = [] :=
    joinedWords_of_blank fun c member => isBlank_of_isIndent (indent c member)
  intro c member
  rw [textLine, ← joinedWords, words] at member
  split at member <;> split at member <;> simp_all

theorem trimmedRow_of_indent (indent : ∀ c ∈ row, isIndent c = true)
    (notAlone : ¬ (isFirst = true ∧ isLast = true)) : trimmedRow isFirst isLast row = [] := by
  have front : row.dropWhile isIndent = [] := List.dropWhile_eq_nil_iff.mpr indent
  have back : dropEndWhile isIndent row = [] := dropEndWhile_eq_nil_of_all indent
  cases isFirst with
  | false =>
    cases isLast <;> simp [trimmedRow, front, dropEndWhile]
  | true =>
    cases isLast with
    | false => simp [trimmedRow, back]
    | true => exact absurd ⟨rfl, rfl⟩ notAlone

/-- A row that is not alone is left out by both if it is blank, and else shows the same. -/
theorem filter_textLine (isRow : IsRow row) (notAlone : ¬ (isFirst = true ∧ isLast = true)) :
    [textLine isFirst isLast row].filter (stripChars · ≠ []) =
      ([trimmedRow isFirst isLast row].filter (· ≠ [])).map squeeze := by
  rcases blank_or_parted isRow with indent | ⟨front, core, back, parted⟩
  · have blank : stripChars (textLine isFirst isLast row) = [] := by
      rw [stripChars, trimWhile_eq_nil_iff]
      intro c member
      rw [textLine_of_indent indent isFirst isLast c member]
      decide
    simp [blank, trimmedRow_of_indent indent notAlone]
  · have shows : stripChars (textLine isFirst isLast row) ≠ [] := by
      obtain ⟨c, member, shown⟩ := parted.textLine_shows isFirst isLast
      rw [Ne, stripChars, trimWhile_eq_nil_iff]
      intro blank
      rw [blank c member] at shown
      cases shown
    have kept : trimmedRow isFirst isLast row ≠ [] := by
      rw [parted.trimmedRow_eq]
      simp [parted.nonempty]
    rw [parted.textLine_eq] at shows ⊢
    simp [shows, kept]

end Row

/-! ## All rows -/

theorem filter_textLines {isFirst : Bool} {rows : List (List Char)} (isRow : ∀ row ∈ rows, IsRow row)
    (notAlone : isFirst = true → rows.length ≠ 1) :
    (textLines isFirst rows).filter (stripChars · ≠ []) =
      ((trimmedRows isFirst rows).filter (· ≠ [])).map squeeze := by
  fun_induction textLines isFirst rows with
  | case1 => rfl
  | case2 isFirst row =>
    exact filter_textLine (isRow row (by simp)) fun both => notAlone both.1 rfl
  | case3 isFirst row rest more ih =>
    have first := @filter_textLine row isFirst false (isRow row (by simp)) (by simp)
    have later := ih (fun other member => isRow other (by simp [member])) (by simp)
    rw [← List.singleton_append, List.filter_append, first, later, trimmedRows, ← List.map_append,
      ← List.filter_append, List.singleton_append]
    exact more

/-- A space between rows is the only one at its place if the rows have none at their ends there. -/
def JoinsApart (row next : List Char) : Prop := row.getLast? ≠ some ' ' ∧ next.head? ≠ some ' '

theorem head?_trimmedRow_ne (isLast : Bool) (row : List Char) :
    (trimmedRow false isLast row).head? ≠ some ' ' := by
  rw [trimmedRow, List.head?_map]
  refine map_untabbed_ne ?_
  cases isLast with
  | false => exact dropWhile_eq_self_iff_head.mp (dropWhile_rdropWhile_dropWhile isIndent row)
  | true => exact dropWhile_eq_self_iff_head.mp (List.dropWhile_idempotent isIndent row)

theorem getLast?_trimmedRow_ne (isFirst : Bool) (row : List Char) :
    (trimmedRow isFirst false row).getLast? ≠ some ' ' := by
  rw [trimmedRow, List.getLast?_map]
  exact map_untabbed_ne (dropEndWhile_eq_self_iff_getLast.mp (List.rdropWhile_idempotent isIndent _))

theorem mem_trimmedRows {row : List Char} {rows : List (List Char)} (member : row ∈ trimmedRows false rows) :
    ∃ isLast old, row = trimmedRow false isLast old := by
  induction rows with
  | nil => cases member
  | cons first rest ih =>
    cases rest with
    | nil => exact ⟨true, first, by simpa [trimmedRows] using member⟩
    | cons next rest =>
      rw [trimmedRows, List.mem_cons] at member
      · exact member.elim (fun here => ⟨false, first, here⟩) ih
      · simp

theorem pairwise_trimmedRows (isFirst : Bool) (rows : List (List Char)) :
    (trimmedRows isFirst rows).Pairwise JoinsApart := by
  fun_induction trimmedRows isFirst rows with
  | case1 => exact .nil
  | case2 isFirst row => exact List.pairwise_singleton _ _
  | case3 isFirst row rest more ih =>
    refine List.pairwise_cons.mpr ⟨fun next member => ?_, ih⟩
    obtain ⟨isLast, old, rfl⟩ := mem_trimmedRows member
    exact ⟨getLast?_trimmedRow_ne isFirst row, head?_trimmedRow_ne isLast old⟩

theorem squeeze_joinChars {rows : List (List Char)} (nonempty : ∀ row ∈ rows, row ≠ [])
    (apart : rows.Pairwise JoinsApart) :
    squeeze (joinChars [' '] rows) = joinChars [' '] (rows.map squeeze) := by
  induction rows with
  | nil => rfl
  | cons row rest ih =>
    cases rest with
    | nil => rfl
    | cons next rest =>
      obtain ⟨here, later⟩ := List.pairwise_cons.mp apart
      obtain ⟨ends, starts⟩ := here next (by simp)
      have head : (joinChars [' '] (next :: rest)).head? ≠ some ' ' := by
        have more : (joinChars [' '] (next :: rest)).head? = next.head? := by
          cases rest with
          | nil => rfl
          | cons after rest =>
            rw [joinChars_cons_of_ne_nil (by simp), List.append_assoc,
              List.head?_append_of_ne_nil _ (nonempty next (by simp))]
        rwa [more]
      have inner := ih (fun other member => nonempty other (by simp [member])) later
      have outer : joinChars [' '] ((row :: next :: rest).map squeeze) =
          squeeze row ++ [' '] ++ joinChars [' '] ((next :: rest).map squeeze) := rfl
      rw [outer, ← inner, joinChars_cons_of_ne_nil (List.cons_ne_nil next rest), List.append_assoc,
        squeeze_append fun last => absurd last ends, List.singleton_append,
        squeeze_cons_of_kept (fun both => head both.2), List.append_assoc, List.singleton_append]

theorem textLine_alone {row : List Char} (isRow : IsRow row) :
    textLine true true row = squeeze (trimmedRow true true row) := by
  rcases blank_or_parted isRow with indent | ⟨front, core, back, parted⟩
  · have words : joinedWords row = [] :=
      joinedWords_of_blank fun c member => isBlank_of_isIndent (indent c member)
    have squeezed : squeeze (trimmedRow true true row) = if row = [] then [] else [' '] := squeeze_indent indent
    rw [squeezed, textLine, ← joinedWords, words]
    cases row with
    | nil => rfl
    | cons c row =>
      have blank := isBlank_of_isIndent (indent c (by simp))
      simp [blank]
  · exact parted.textLine_eq true true

/-- A text between tags shows what React's rule leaves of it, with one space for each run of spaces. -/
theorem textValue_eq_squeeze (raw : String) (ordinary : OrdinaryBlanks raw.toList) :
    (textValue raw).toList = squeeze (joinedRows raw.toList) := by
  obtain ⟨split, isRow⟩ := splitChar_replaceChars ordinary
  have trimmed : joinedRows raw.toList =
      joinChars [' '] ((trimmedRows true (rowsOf raw.toList)).filter (· ≠ [])) := by
    rw [joinedRows, ← mapIdx_trimmedRow]
    rfl
  rw [textValue, String.toList_ofList, textValueChars, split, trimmed]
  -- a row that is first and last at once is kept even if it is blank
  by_cases alone : (rowsOf raw.toList).length = 1
  · obtain ⟨row, single⟩ := List.length_eq_one_iff.mp alone
    have shown := textLine_alone (isRow row (by simp [single]))
    rw [single]
    simp only [textLines, trimmedRows, joinChars, List.length_singleton, beq_self_eq_true, if_true, shown]
    by_cases empty : trimmedRow true true row = []
    · simp [empty, joinChars, squeeze]
    · simp [empty, joinChars]
  · have several : ((rowsOf raw.toList).length == 1) = false := by simpa using alone
    simp only [several, Bool.false_eq_true, if_false]
    rw [filter_textLines isRow fun _ => alone,
      squeeze_joinChars (fun row member => by simpa using (List.mem_filter.mp member).2)
        ((pairwise_trimmedRows _ _).filter _)]

/-- A text whose first row is blank and whose last row ends with a tab. -/
theorem textValue_eq_squeeze_rows :
    OrdinaryBlanks " \t\r\n  Hello,\t  you \n\n there\t".toList ∧
      (textValue " \t\r\n  Hello,\t  you \n\n there\t").toList =
        squeeze (joinedRows " \t\r\n  Hello,\t  you \n\n there\t".toList) ∧
      textValue " \t\r\n  Hello,\t  you \n\n there\t" = "Hello, you there " := by
  have ordinary : OrdinaryBlanks " \t\r\n  Hello,\t  you \n\n there\t".toList := by decide
  exact ⟨ordinary, textValue_eq_squeeze " \t\r\n  Hello,\t  you \n\n there\t" ordinary, by decide +kernel⟩

end Recast.Analysis
