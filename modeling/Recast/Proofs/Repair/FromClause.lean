import Recast.Proofs.Text.Substitution
import Recast.Repair.Imports

/-!
# From clauses

A scan for from clauses only looks at the runs of text between quotes: whether a run ends with the keyword, and
whether the quote behind it is closed by the next one. `scan_run` and `scanQuoted_run` say so, and everything about
clauses follows from them run by run.
-/

set_option autoImplicit false

namespace Recast.Repair

open Recast.Text

/-- What a script reads from: the keyword with its blanks, the quote, and the module. -/
structure FromClause where
  keyword : List Char
  quote : Char
  source : List Char
  deriving DecidableEq

def FromClause.text (c : FromClause) : List Char := c.keyword ++ c.quote :: (c.source ++ [c.quote])

/-- Recognizes a from clause. -/
def fromClause : Rule FromClause := fun previous cs => do
  guard (!previous.any isWord)
  let quotedPart := (← after? "from".toList cs).dropWhile isBlank
  let (quote, source, rest) ← quotedText? quotedPart
  guard ((readPart quotedPart rest).getLast? = some quote)
  return (⟨readPart cs quotedPart, quote, source⟩, rest)

/-- The modules that a text reads from. -/
def fromSources (cs : List Char) : List (List Char) :=
  ((segments fromClause cs).filterMap Segment.value?).map (·.source)

/-! ## What is recognized -/

/-- There is no quote in a text. -/
def Unquoted (text : List Char) : Prop := ∀ c ∈ text, isPlainQuote c = false

instance (text : List Char) : Decidable (Unquoted text) :=
  decidable_of_iff (text.all (!isPlainQuote ·) = true) (by simp [Unquoted])

/-- The keyword and blanks behind it. -/
def IsKeyword (text : List Char) : Prop := ∃ blanks, (∀ c ∈ blanks, isBlank c = true) ∧ text = "from".toList ++ blanks

structure FromClause.IsClause (c : FromClause) : Prop where
  keyword : IsKeyword c.keyword
  quote : isPlainQuote c.quote = true
  nonempty : c.source ≠ []
  unquoted : Unquoted c.source

theorem readPart_append (front back : List Char) : readPart (front ++ back) back = front := by
  rw [readPart, List.length_append, Nat.add_sub_cancel, List.take_left' rfl]

theorem Unquoted.append {front back : List Char} (hf : Unquoted front) (hb : Unquoted back) :
    Unquoted (front ++ back) :=
  fun c member => (List.mem_append.mp member).elim (hf c) (hb c)

theorem Unquoted.left {front back : List Char} (h : Unquoted (front ++ back)) : Unquoted front :=
  fun c member => h c (List.mem_append_left _ member)

theorem Unquoted.right {front back : List Char} (h : Unquoted (front ++ back)) : Unquoted back :=
  fun c member => h c (List.mem_append_right _ member)

theorem Unquoted.tail {c : Char} {text : List Char} (h : Unquoted (c :: text)) : Unquoted text :=
  fun d member => h d (.tail _ member)

theorem isPlainQuote_eq_false_of_isBlank {c : Char} (h : isBlank c = true) : isPlainQuote c = false := by
  cases quote : isPlainQuote c with
  | false => rfl
  | true =>
    rw [isPlainQuote, Bool.or_eq_true, beq_iff_eq, beq_iff_eq] at quote
    rcases quote with rfl | rfl <;> exact absurd h (by decide)

theorem isBlank_eq_false_of_isPlainQuote {c : Char} (h : isPlainQuote c = true) : isBlank c = false := by
  rw [← Bool.not_eq_true]
  intro blank
  rw [isPlainQuote_eq_false_of_isBlank blank] at h
  exact Bool.false_ne_true h

theorem isWord_of_isPlainQuote {c : Char} (h : isPlainQuote c = true) : (some c).any isWord = false := by
  rw [isPlainQuote, Bool.or_eq_true, beq_iff_eq, beq_iff_eq] at h
  rcases h with rfl | rfl <;> decide

theorem IsKeyword.unquoted {text : List Char} (h : IsKeyword text) : Unquoted text := by
  obtain ⟨blanks, all, rfl⟩ := h
  exact Unquoted.append (by decide) fun c member => isPlainQuote_eq_false_of_isBlank (all c member)

/-- Text splits in one way at its first quote. -/
theorem unquoted_inj {front front' back back' : List Char} {q q' : Char} (hf : Unquoted front)
    (hf' : Unquoted front') (hq : isPlainQuote q = true) (hq' : isPlainQuote q' = true)
    (same : front ++ q :: back = front' ++ q' :: back') : front = front' ∧ q = q' ∧ back = back' := by
  obtain ⟨rfl, rest⟩ := append_inj_of_head (p := (!isPlainQuote ·)) (by simpa [Unquoted] using hf)
    (by simpa [Unquoted] using hf') (by simp [hq]) (by simp [hq']) same
  exact ⟨rfl, List.cons_eq_cons.mp rest⟩

theorem quotedText?_eq_some_iff {cs source rest : List Char} {q : Char} :
    quotedText? cs = some (q, source, rest) ↔
      ∃ q', isPlainQuote q = true ∧ isPlainQuote q' = true ∧ source ≠ [] ∧ Unquoted source ∧
        cs = q :: (source ++ q' :: rest) := by
  constructor
  · intro found
    cases cs with
    | nil => cases found
    | cons d cs =>
      simp only [quotedText?] at found
      split at found
      · rename_i closed
        simp only [Option.some.injEq, Prod.mk.injEq] at found
        obtain ⟨rfl, rfl, rfl⟩ := found
        simp only [Bool.and_eq_true, decide_eq_true_eq] at closed
        obtain ⟨⟨quote, nonempty⟩, more⟩ := closed
        cases behind : cs.dropWhile (!isPlainQuote ·) with
        | nil => simp [behind] at more
        | cons q' rest =>
          refine ⟨q', quote, ?_, nonempty, ?_, ?_⟩
          · simpa [behind] using List.head?_dropWhile_not (!isPlainQuote ·) cs
          · intro c member
            simpa using List.mem_takeWhile_imp member
          · rw [List.drop_succ_cons, List.drop_zero, ← behind, List.takeWhile_append_dropWhile]
      · cases found
  · rintro ⟨q', quote, quote', nonempty, unquoted, rfl⟩
    have all : ∀ c ∈ source, (!isPlainQuote c) = true := by simpa [Unquoted] using unquoted
    have stop : (q' :: rest).head?.any (!isPlainQuote ·) = false := by simp [quote']
    rw [quotedText?, takeWhile_append_of_head all stop, dropWhile_append_of_head all stop]
    simp [quote, nonempty]

theorem fromClause_eq_some_iff {previous : Option Char} {cs rest : List Char} {c : FromClause} :
    fromClause previous cs = some (c, rest) ↔
      previous.any isWord = false ∧ c.IsClause ∧ cs = c.text ++ rest := by
  simp only [fromClause, Option.bind_eq_bind, Option.bind_eq_some_iff, Option.guard_eq_some', after?_eq_some_iff]
  constructor
  · rintro ⟨_, start, behind, rfl, ⟨q, source, left⟩, found, _, closed, own⟩
    obtain ⟨rfl, rfl⟩ := Prod.mk.inj (Option.some.inj own)
    obtain ⟨q', quote, quote', nonempty, unquoted, part⟩ := quotedText?_eq_some_iff.mp found
    dsimp only at closed ⊢
    rw [part, show q :: (source ++ q' :: left) = (q :: (source ++ [q'])) ++ left by simp, readPart_append,
      ← List.cons_append, List.getLast?_concat, Option.some.injEq] at closed
    subst closed
    have front : "from".toList ++ behind = "from".toList ++ behind.takeWhile isBlank ++ behind.dropWhile isBlank := by
      rw [List.append_assoc, List.takeWhile_append_dropWhile]
    rw [front, readPart_append]
    refine ⟨by simpa using start, ⟨⟨_, fun c member => List.mem_takeWhile_imp member, rfl⟩, quote, nonempty,
      unquoted⟩, ?_⟩
    rw [part, FromClause.text]
    simp
  · rintro ⟨start, ⟨⟨blanks, all, keyword⟩, quote, nonempty, unquoted⟩, rfl⟩
    have behind : (blanks ++ c.quote :: (c.source ++ c.quote :: rest)).dropWhile isBlank =
        c.quote :: (c.source ++ c.quote :: rest) :=
      dropWhile_append_of_head all (by simp [isBlank_eq_false_of_isPlainQuote quote])
    have text : c.text ++ rest = "from".toList ++ (blanks ++ c.quote :: (c.source ++ c.quote :: rest)) := by
      rw [FromClause.text, keyword]
      simp
    refine ⟨(), by simp [start], _, text, (c.quote, c.source, rest), ?_, (), ?_, ?_⟩
    · rw [behind]
      exact quotedText?_eq_some_iff.mpr ⟨c.quote, quote, quote, nonempty, unquoted, rfl⟩
    · rw [behind, show c.quote :: (c.source ++ c.quote :: rest) = (c.quote :: (c.source ++ [c.quote])) ++ rest by simp,
        readPart_append, ← List.cons_append, List.getLast?_concat]
    · rw [behind, text, ← List.append_assoc, readPart_append, ← keyword]
      rfl

/-! ## Scanning run by run -/

/-- The keyword stands at the end of a run, as a word of its own. -/
def Opens (previous : Option Char) (run : List Char) : Prop :=
  ∃ front keyword, run = front ++ keyword ∧ IsKeyword keyword ∧ (lastOr previous front).any isWord = false

@[elab_as_elim]
theorem run_induction {motive : List Char → Prop} (last : ∀ run, Unquoted run → motive run)
    (more : ∀ run q text, Unquoted run → isPlainQuote q = true → motive text → motive (run ++ q :: text))
    (text : List Char) : motive text := by
  have behind : ∀ run, Unquoted run → motive (run ++ text) := by
    induction text with
    | nil => simpa using last
    | cons c text ih =>
      intro run unquoted
      cases quote : isPlainQuote c with
      | true => exact more run c text unquoted quote (ih [] (by decide))
      | false =>
        rw [List.append_cons]
        exact ih _ (unquoted.append (by simpa [Unquoted] using quote))
  exact behind [] (by decide)

theorem run_cases (text : List Char) :
    Unquoted text ∨ ∃ run q rest, Unquoted run ∧ isPlainQuote q = true ∧ text = run ++ q :: rest :=
  run_induction (fun _ unquoted => .inl unquoted)
    (fun run q rest unquoted quote _ => .inr ⟨run, q, rest, unquoted, quote, rfl⟩) text

section Silent

variable {run text : List Char} {q : Char}

theorem fromClause_eq_some_of_run (unquoted : Unquoted run) (quote : isPlainQuote q = true)
    {previous : Option Char} {c : FromClause} {rest : List Char}
    (found : fromClause previous (run ++ q :: text) = some (c, rest)) :
    IsKeyword run ∧ previous.any isWord = false ∧ c.IsClause ∧ text = c.source ++ q :: rest := by
  obtain ⟨start, clause, whole⟩ := fromClause_eq_some_iff.mp found
  rw [FromClause.text, List.append_assoc, List.cons_append, List.append_assoc, List.singleton_append] at whole
  obtain ⟨rfl, rfl, behind⟩ := unquoted_inj unquoted clause.keyword.unquoted quote clause.quote whole
  exact ⟨clause.keyword, start, clause, behind⟩

theorem not_mem_of_isKeyword {c : Char} {text : List Char} (h : IsKeyword (c :: text)) : 'f' ∉ text := by
  obtain ⟨blanks, all, same⟩ := h
  obtain rfl : text = "rom".toList ++ blanks := (List.cons_eq_cons.mp same).2
  intro member
  rcases List.mem_append.mp member with here | blank
  · exact absurd here (by decide)
  · exact absurd (all _ blank) (by decide)

theorem silent_unquoted (unquoted : Unquoted run) (previous : Option Char) : Silent fromClause previous run [] := by
  induction run generalizing previous with
  | nil => trivial
  | cons c run ih =>
    refine ⟨?_, ih unquoted.tail _⟩
    rw [List.append_nil]
    cases found : fromClause previous (c :: run) with
    | none => rfl
    | some hit =>
      obtain ⟨-, clause, whole⟩ := fromClause_eq_some_iff.mp found
      have plain := unquoted hit.1.quote (by rw [whole, FromClause.text]; simp)
      rw [clause.quote] at plain
      cases plain

/-- Nothing is found in a run that is not the front of a clause. -/
theorem silent_run (unquoted : Unquoted run) (quote : isPlainQuote q = true) {previous : Option Char}
    (apart : ∀ (c : FromClause) (rest : List Char), c.IsClause → Opens previous run → text ≠ c.source ++ q :: rest) :
    Silent fromClause previous (run ++ [q]) text := by
  induction run generalizing previous with
  | nil =>
    refine ⟨?_, trivial⟩
    cases found : fromClause previous (q :: text) with
    | none => exact found
    | some hit =>
      have whole : fromClause previous ([] ++ q :: text) = some (hit.1, hit.2) := found
      obtain ⟨⟨blanks, -, same⟩, -⟩ := fromClause_eq_some_of_run unquoted quote whole
      cases same
  | cons c run ih =>
    have whole : c :: (run ++ [q] ++ text) = c :: run ++ q :: text := by simp
    refine ⟨(?_ : fromClause previous (c :: (run ++ [q] ++ text)) = none), ih unquoted.tail ?_⟩
    · rw [whole]
      cases found : fromClause previous (c :: run ++ q :: text) with
      | none => rfl
      | some hit =>
        obtain ⟨keyword, start, clause, behind⟩ := fromClause_eq_some_of_run unquoted quote found
        exact absurd behind (apart _ _ clause ⟨[], _, rfl, keyword, start⟩)
    · rintro clause rest isClause ⟨front, keyword, rfl, isKeyword, start⟩
      exact apart clause rest isClause ⟨c :: front, keyword, rfl, isKeyword, by rwa [lastOr_cons]⟩

/-- Nothing is found in front of a keyword. -/
theorem silent_front {front keyword : List Char} (unquoted : Unquoted (front ++ keyword))
    (quote : isPlainQuote q = true) (isKeyword : IsKeyword keyword) (previous : Option Char) :
    Silent fromClause previous front (keyword ++ q :: text) := by
  induction front generalizing previous with
  | nil => trivial
  | cons c front ih =>
    refine ⟨?_, ih unquoted.tail _⟩
    have whole : c :: (front ++ (keyword ++ q :: text)) = c :: (front ++ keyword) ++ q :: text := by simp
    rw [whole]
    cases found : fromClause previous (c :: (front ++ keyword) ++ q :: text) with
    | none => rfl
    | some hit =>
      obtain ⟨early, -⟩ := fromClause_eq_some_of_run unquoted quote found
      obtain ⟨blanks, -, rfl⟩ := isKeyword
      exact absurd (List.mem_append_right _ (by simp)) (not_mem_of_isKeyword early)

end Silent

section Scan

variable {β : Type} (plain : Char → List β) (source : Char → List Char → List β)

/-- What becomes of a piece: of each character, and of a module with the quote behind it. -/
def piece : Segment FromClause → List β
  | .plain t => t.flatMap plain
  | .hit _ c => (c.keyword ++ [c.quote]).flatMap plain ++ source c.quote c.source

/-- What becomes of a text that is scanned for from clauses. -/
def scan (previous : Option Char) (cs : List Char) : List β :=
  (segmentsFrom fromClause 0 previous cs).flatMap (piece plain source)

theorem flatMap_piece_pushPlain (c : Char) (pieces : List (Segment FromClause)) :
    (pushPlain c pieces).flatMap (piece plain source) = plain c ++ pieces.flatMap (piece plain source) := by
  unfold pushPlain
  split <;> simp [piece]

theorem scan_of_none {previous : Option Char} {c : Char} {cs : List Char}
    (h : fromClause previous (c :: cs) = none) :
    scan plain source previous (c :: cs) = plain c ++ scan plain source (some c) cs := by
  rw [scan, segmentsFrom_of_none h, scan, flatMap_piece_pushPlain]

theorem scan_of_silent {previous : Option Char} {text rest : List Char}
    (silent : Silent fromClause previous text rest) :
    scan plain source previous (text ++ rest) =
      text.flatMap plain ++ scan plain source (lastOr previous text) rest := by
  induction text generalizing previous with
  | nil => rfl
  | cons c text ih =>
    rw [List.cons_append, scan_of_none plain source silent.1, ih silent.2, lastOr_cons, List.flatMap_cons,
      List.append_assoc]

/-- Only a word character in front makes a difference. -/
theorem scan_previous {previous : Option Char} (start : previous.any isWord = false) (cs : List Char) :
    scan plain source previous cs = scan plain source none cs := by
  have same : ∀ cs, fromClause previous cs = fromClause none cs := fun cs => by
    rw [fromClause, fromClause, start]
    rfl
  cases cs with
  | nil => rfl
  | cons c cs => rw [scan, scan, segmentsFrom, segmentsFrom, same]

theorem scan_of_clause {previous : Option Char} (start : previous.any isWord = false) {c : FromClause}
    (clause : c.IsClause) (rest : List Char) :
    scan plain source previous (c.text ++ rest) =
      (c.keyword ++ [c.quote]).flatMap plain ++ (source c.quote c.source ++ scan plain source none rest) := by
  have found : fromClause previous (c.text ++ rest) = some (c, rest) :=
    fromClause_eq_some_iff.mpr ⟨start, clause, rfl⟩
  have nonempty : c.text ≠ [] := by simp [FromClause.text]
  have last : lastOr previous c.text = some c.quote := by
    rw [FromClause.text, ← List.cons_append, ← List.append_assoc, lastOr_concat]
  rw [scan, segmentsFrom_of_some nonempty found, List.flatMap_cons, last, ← scan,
    scan_previous _ _ (isWord_of_isPlainQuote clause.quote), piece, List.append_assoc]

/-- What becomes of a text behind a quote that a keyword stands in front of. -/
def scanQuoted (q : Char) (cs : List Char) : List β :=
  match cs.dropWhile (!isPlainQuote ·) with
  | [] => scan plain source none cs
  | q' :: rest =>
    let run := cs.takeWhile (!isPlainQuote ·)
    if run ≠ [] ∧ q' = q then source q run ++ scan plain source none rest else scan plain source none cs

variable {run : List Char} {q : Char}

theorem scan_last (unquoted : Unquoted run) (previous : Option Char) :
    scan plain source previous run = run.flatMap plain := by
  have passed := scan_of_silent plain source (silent_unquoted unquoted previous)
  rw [List.append_nil] at passed
  rw [passed]
  exact List.append_nil _

theorem scanQuoted_last (unquoted : Unquoted run) : scanQuoted plain source q run = run.flatMap plain := by
  have none : run.dropWhile (!isPlainQuote ·) = [] :=
    List.dropWhile_eq_nil_iff.mpr fun c member => by simp [unquoted c member]
  rw [scanQuoted, none]
  exact scan_last plain source unquoted _

theorem scanQuoted_run (unquoted : Unquoted run) {q' : Char} (quote : isPlainQuote q' = true) (text : List Char) :
    scanQuoted plain source q (run ++ q' :: text) =
      if run ≠ [] ∧ q' = q then source q run ++ scan plain source none text
      else scan plain source none (run ++ q' :: text) := by
  have all : ∀ c ∈ run, (!isPlainQuote c) = true := by simpa [Unquoted] using unquoted
  have stop : (q' :: text).head?.any (!isPlainQuote ·) = false := by simp [quote]
  rw [scanQuoted, dropWhile_append_of_head all stop, takeWhile_append_of_head all stop]

theorem scan_passed (quote : isPlainQuote q = true) {text : List Char}
    (silent : Silent fromClause none (run ++ [q]) text) :
    scan plain source none (run ++ q :: text) = (run ++ [q]).flatMap plain ++ scan plain source none text := by
  rw [List.append_cons, scan_of_silent plain source silent, lastOr_concat,
    scan_previous _ _ (isWord_of_isPlainQuote quote)]

theorem scan_run_of_not_opens (unquoted : Unquoted run) (quote : isPlainQuote q = true) (other : ¬ Opens none run)
    (text : List Char) :
    scan plain source none (run ++ q :: text) = (run ++ [q]).flatMap plain ++ scan plain source none text :=
  scan_passed plain source quote (silent_run unquoted quote fun _ _ _ opens => absurd opens other)

theorem scan_run_of_opens (unquoted : Unquoted run) (quote : isPlainQuote q = true) (opens : Opens none run)
    (text : List Char) :
    scan plain source none (run ++ q :: text) = (run ++ [q]).flatMap plain ++ scanQuoted plain source q text := by
  rcases run_cases text with last | ⟨inside, q', rest, inner, quote', rfl⟩
  · rw [scanQuoted_last _ _ last, ← scan_last plain source last none]
    refine scan_passed plain source quote (silent_run unquoted quote fun c rest clause _ whole => ?_)
    have plain := last q (by rw [whole]; simp)
    rw [quote] at plain
    cases plain
  · rw [scanQuoted_run _ _ inner quote']
    split
    · rename_i closed
      obtain ⟨nonempty, rfl⟩ := closed
      obtain ⟨front, keyword, rfl, isKeyword, start⟩ := opens
      have clause : FromClause.IsClause ⟨keyword, q', inside⟩ := ⟨isKeyword, quote, nonempty, inner⟩
      have text : front ++ keyword ++ q' :: (inside ++ q' :: rest) =
          front ++ (FromClause.text ⟨keyword, q', inside⟩ ++ rest) := by simp [FromClause.text]
      have silent : Silent fromClause none front (FromClause.text ⟨keyword, q', inside⟩ ++ rest) := by
        have passed : Silent fromClause none front (keyword ++ q' :: (inside ++ q' :: rest)) :=
          silent_front unquoted quote isKeyword none
        simpa [FromClause.text] using passed
      rw [text, scan_of_silent plain source silent, scan_of_clause plain source start clause]
      simp
    · rename_i apart
      refine scan_passed plain source quote (silent_run unquoted quote fun c left clause _ whole => apart ?_)
      obtain ⟨rfl, rfl, -⟩ := unquoted_inj inner clause.unquoted quote' quote whole
      exact ⟨clause.nonempty, rfl⟩

end Scan

end Recast.Repair
