import Recast.Proofs.Text.Search
import Recast.Tsx.Grammar.Basic

/-!
# What readings do

A reading at the start of a text either fails or delivers something and leaves a rest. `Reads` and
`Fails` say which, and compose along the ways readings are put together. `Delivers` says of a reading
what everything it delivers has in common, wherever it starts.
-/

set_option autoImplicit false

namespace Recast.Tsx

open Recast.Text

/-- The position in front of a text. -/
def Cursor.before (cs : List Char) : Cursor := ⟨cs.length, cs, rfl⟩

theorem Cursor.eq_before (c : Cursor) : c = .before c.rest := by
  obtain ⟨left, rest, rfl⟩ := c
  rfl

@[simp] theorem Cursor.rest_before (cs : List Char) : (Cursor.before cs).rest = cs := rfl

@[simp] theorem Cursor.advance_before (front rest : List Char) :
    (Cursor.before (front ++ rest)).advance front.length = .before rest := by
  rw [Cursor.eq_before (Cursor.advance _ _)]
  exact congrArg Cursor.before List.drop_left

theorem Cursor.textTo_before (front rest : List Char) :
    (Cursor.before (front ++ rest)).textTo (.before rest) = String.ofList front := by
  simp [Cursor.textTo, Cursor.before]

/-- The reading delivers `a` at the start of `cs` and leaves `rest`. -/
def Reads {α : Type} (p : Reader α) (cs : List Char) (a : α) (rest : List Char) : Prop :=
  p (.before cs) = some (a, .before rest)

def Fails {α : Type} (p : Reader α) (cs : List Char) : Prop := p (.before cs) = none

/-- Whatever the reading delivers has the property. -/
def Delivers {α : Type} (P : α → Prop) (p : Reader α) : Prop :=
  ∀ ⦃c a c'⦄, p c = some (a, c') → P a

section

variable {α β : Type} {p : Reader α} {f : α → Reader β} {a : α} {b : β} {cs mid rest : List Char}

theorem bind_apply (p : Reader α) (f : α → Reader β) (c : Cursor) :
    (p >>= f) c = (p c).bind fun read => f read.1 read.2 := rfl

theorem orElse_apply (p q : Reader α) (c : Cursor) : (p <|> q) c = (p c).or (q c) := by
  show (p c <|> q c) = _
  cases p c <;> rfl

/-! ## In sequence -/

theorem Reads.pure (a : α) (cs : List Char) : Reads (pure a) cs a cs := rfl

theorem reads_get (cs : List Char) : Reads get cs (.before cs) cs := rfl

theorem reads_set (c : Cursor) (cs : List Char) : Reads (set c) cs () c.rest := by
  rw [Reads, ← Cursor.eq_before]
  rfl

theorem Reads.bind (first : Reads p cs a mid) (second : Reads (f a) mid b rest) :
    Reads (p >>= f) cs b rest := by
  rw [Reads, bind_apply, first]
  exact second

theorem Fails.bind (first : Fails p cs) : Fails (p >>= f) cs := by
  rw [Fails, bind_apply, first]
  rfl

theorem Fails.later (first : Reads p cs a mid) (second : Fails (f a) mid) : Fails (p >>= f) cs := by
  rw [Fails, bind_apply, first]
  exact second

theorem Delivers.pure {P : α → Prop} (holds : P a) : Delivers P (pure a) := by
  intro c a' c' read
  cases read
  exact holds

theorem Delivers.bind {P : α → Prop} {Q : β → Prop} (first : Delivers P p)
    (second : ∀ a, P a → Delivers Q (f a)) : Delivers Q (p >>= f) := by
  intro c b c' read
  rw [bind_apply] at read
  obtain ⟨⟨a, mid⟩, left, right⟩ := Option.bind_eq_some_iff.mp read
  exact second a (first left) right

/-- Where nothing has to be known about what comes first. -/
theorem Delivers.last {Q : β → Prop} (second : ∀ a, Delivers Q (f a)) : Delivers Q (p >>= f) :=
  .bind (P := fun _ => True) (fun _ _ _ _ => trivial) fun a _ => second a

theorem Delivers.mono {P Q : α → Prop} (weaker : ∀ a, P a → Q a) (all : Delivers P p) : Delivers Q p :=
  fun _ _ _ read => weaker _ (all read)

theorem Delivers.failure {P : α → Prop} : Delivers P (failure : Reader α) := nofun

/-! ## Alternatives -/

theorem Reads.orElse {q : Reader α} (first : Reads p cs a rest) : Reads (p <|> q) cs a rest := by
  rw [Reads, orElse_apply, first]
  rfl

theorem Reads.orElse_right {q : Reader α} (first : Fails p cs) (second : Reads q cs a rest) :
    Reads (p <|> q) cs a rest := by
  rw [Reads, orElse_apply, first]
  exact second

theorem Fails.orElse {q : Reader α} (first : Fails p cs) (second : Fails q cs) :
    Fails (p <|> q) cs := by
  rw [Fails, orElse_apply, first]
  exact second

theorem Delivers.orElse {P : α → Prop} {q : Reader α} (left : Delivers P p) (right : Delivers P q) :
    Delivers P (p <|> q) := by
  intro c a c' read
  rw [orElse_apply] at read
  rcases Option.or_eq_some_iff.mp read with read | ⟨-, read⟩
  · exact left read
  · exact right read

theorem Reads.optional (first : Reads p cs a rest) : Reads (optional p) cs [a] rest :=
  .orElse (.bind first (.pure _ _))

theorem Reads.optional_none (first : Fails p cs) : Reads (Tsx.optional p) cs [] cs :=
  .orElse_right first.bind (.pure _ _)

theorem Delivers.optional {P : α → Prop} (all : Delivers P p) :
    Delivers (fun as => ∃ a : Option α, as = a.toList ∧ ∀ x ∈ a, P x) (optional p) :=
  .orElse (.bind all fun a holds => .pure ⟨some a, rfl, by simpa using holds⟩) (.pure ⟨none, rfl, nofun⟩)

theorem Reads.lookAhead (first : Reads p cs a rest) : Reads (lookAhead p) cs a cs := by
  rw [Reads, Tsx.lookAhead]
  exact Reads.bind rfl (Reads.bind first (Reads.bind rfl (.pure _ _)))

end

/-! ## Repetition -/

/-- One reading after the other delivers the items of a list, each of some length, until the next one
fails. -/
inductive ReadsAll {α : Type} (p : Reader α) : List Char → List α → List Char → Prop
  | stop {cs : List Char} (fails : Fails p cs) : ReadsAll p cs [] cs
  | step {cs mid rest : List Char} {a : α} {as : List α} (first : Reads p cs a mid)
    (shorter : mid.length < cs.length) (more : ReadsAll p mid as rest) : ReadsAll p cs (a :: as) rest

section

variable {α : Type} {p : Reader α} {a : α} {as : List α} {cs rest : List Char} {P : α → Prop}

theorem ReadsAll.manyUpTo (all : ReadsAll p cs as rest) {n : Nat} (enough : cs.length < n) :
    Reads (manyUpTo p n) cs as rest := by
  induction all generalizing n with
  | stop fails =>
    cases n with
    | zero => omega
    | succ n => exact .orElse_right fails.bind (.pure _ _)
  | step first shorter more ih =>
    cases n with
    | zero => omega
    | succ n => exact .orElse (.bind first (.bind (ih (by omega)) (.pure _ _)))

theorem ReadsAll.many (all : ReadsAll p cs as rest) : Reads (many p) cs as rest :=
  all.manyUpTo (Nat.lt_succ_self _)

theorem Delivers.many (all : Delivers P p) : Delivers (fun as => ∀ a ∈ as, P a) (many p) := by
  have upTo : ∀ n, Delivers (fun as => ∀ a ∈ as, P a) (manyUpTo p n) := by
    intro n
    induction n with
    | zero => exact .pure (by simp)
    | succ n ih =>
      refine .orElse (.bind all fun a here => .bind ih fun as there => .pure ?_) (.pure (by simp))
      exact List.forall_mem_cons.mpr ⟨here, there⟩
  exact .last fun c => upTo _

theorem Delivers.extend {step : α → Reader α} (steps : ∀ a, P a → Delivers P (step a)) (first : P a) :
    Delivers P (extend step a) := by
  have upTo : ∀ n a, P a → Delivers P (extendUpTo step n a) := by
    intro n
    induction n with
    | zero => exact fun a here => .pure here
    | succ n ih => exact fun a here => .orElse (.bind (steps a here) ih) (.pure here)
  exact .last fun c => upTo _ a first

end

/-! ## Between lexemes -/

/-- Neither space nor a comment stands at the start of a text. -/
def opens : List Char → Bool
  | [] => true
  | c :: _ => !isSpace c && c != '/'

theorem triviaFrom_opens {cs : List Char} (first : opens cs = true) : triviaFrom .code cs = some .none := by
  cases cs with
  | nil => rfl
  | cons c cs =>
    simp only [opens, Bool.and_eq_true, Bool.not_eq_true', bne_iff_ne] at first
    rw [triviaFrom.eq_def]
    split <;> simp_all

theorem skip_apply (c : Cursor) :
    skip c = some ((), c.advance (triviaOf c.rest).length) := rfl

theorem reads_skip {cs : List Char} (first : opens cs = true) : Reads skip cs () cs := by
  rw [Reads, skip_apply]
  show some ((), (Cursor.before ([] ++ cs)).advance (triviaOf cs).length) = _
  rw [triviaOf, triviaFrom_opens first]
  rfl

theorem reads_ahead {cs body : List Char} (skips : Reads skip cs () body) : Reads ahead cs body cs := by
  rw [Reads, skip_apply] at skips
  have rest : cs.drop (triviaOf cs).length = body :=
    congrArg (fun read => (read.getD ((), .before [])).2.rest) skips
  rw [← rest]
  rfl

theorem reads_skip_space {cs : List Char} (first : opens cs = true) : Reads skip (' ' :: cs) () cs := by
  have one : (triviaOf (' ' :: cs)).length = 1 := by
    rw [triviaOf, triviaFrom]
    · simp [triviaFrom_opens first, isSpace, Trivia.grow, Trivia.none]
    · simp
    · simp
  rw [Reads, skip_apply]
  show some ((), (Cursor.before ([' '] ++ cs)).advance (triviaOf (' ' :: cs)).length) = _
  rw [one]
  exact congrArg (fun c => some ((), c)) (Cursor.advance_before [' '] cs)

/-- What stands between two lexemes is passed over at once. -/
theorem triviaFrom_drop {mode : TriviaMode} {cs : List Char} {t : Trivia} (read : triviaFrom mode cs = some t) :
    triviaFrom .code (cs.drop t.length) = some .none := by
  fun_induction triviaFrom mode cs generalizing t with
  | case1 cs ih =>
    obtain ⟨t', inside, rfl⟩ := Option.map_eq_some_iff.mp read
    exact ih inside
  | case2 cs t' inside ih =>
    cases read
    exact ih inside
  | case3 cs unclosed ih =>
    cases read
    show triviaFrom .code ('/' :: '*' :: cs) = _
    rw [triviaFrom, unclosed]
  | case4 c cs _ _ space ih =>
    obtain ⟨t', inside, rfl⟩ := Option.map_eq_some_iff.mp read
    exact ih inside
  | case5 c cs line block other =>
    cases read
    show triviaFrom .code (c :: cs) = _
    rw [triviaFrom, if_neg other]
    · exact line
    · exact block
  | case6 =>
    cases read
    rfl
  | case7 text c cs ends ih =>
    obtain ⟨t', inside, rfl⟩ := Option.map_eq_some_iff.mp read
    exact ih inside
  | case8 text c cs other ih =>
    obtain ⟨t', inside, rfl⟩ := Option.map_eq_some_iff.mp read
    exact ih inside
  | case9 text =>
    cases read
    rfl
  | case10 text cs ih =>
    obtain ⟨t', inside, rfl⟩ := Option.map_eq_some_iff.mp read
    exact ih inside
  | case11 text c cs _ ih =>
    obtain ⟨t', inside, rfl⟩ := Option.map_eq_some_iff.mp read
    exact ih inside
  | case12 => cases read

/-- After a skip nothing is left to skip. -/
theorem skip_skip (c : Cursor) : ∃ cs, skip c = some ((), .before cs) ∧ Reads skip cs () cs := by
  refine ⟨c.rest.drop (triviaOf c.rest).length, ?_, ?_⟩
  · rw [skip_apply, Cursor.eq_before (c.advance _)]
    rfl
  · have done : triviaOf (c.rest.drop (triviaOf c.rest).length) = .none := by
      cases read : triviaFrom .code c.rest with
      | none => simp [triviaOf, read, Trivia.none]
      | some t => simp [triviaOf, read, triviaFrom_drop read]
    rw [Reads, skip_apply]
    show some ((), (Cursor.before ([] ++ _)).advance _) = _
    rw [Cursor.before, done]
    rfl

/-! ## Lexemes -/

section

variable {cs body rest : List Char} {s : String}

theorem reads_chars (s : String) (rest : List Char) : Reads (chars s) (s.toList ++ rest) () rest := by
  refine .bind (reads_get _) ?_
  simp only [Cursor.rest_before, after?_append, Cursor.advance_before]
  exact reads_set _ _

theorem fails_chars (other : after? s.toList cs = none) : Fails (chars s) cs := by
  refine .later (reads_get _) ?_
  simp only [Cursor.rest_before, other]
  rfl

theorem reads_sym (skips : Reads skip cs () (s.toList ++ rest)) : Reads (sym s) cs () rest :=
  .bind skips (reads_chars s rest)

theorem fails_sym (skips : Reads skip cs () body) (other : after? s.toList body = none) : Fails (sym s) cs :=
  .later skips (fails_chars other)

/-- The characters of an identifier or keyword. -/
def isWord : List Char → Bool
  | [] => false
  | c :: cs => isWordChar c && !c.isDigit && cs.all isWordChar

/-- No word goes on at the start of a text. -/
def endsWord (cs : List Char) : Bool := !cs.head?.any isWordChar

/-- No word starts at the start of a text. -/
def isWordStart (cs : List Char) : Bool := cs.head?.any fun c => isWordChar c && !c.isDigit

theorem opens_of_isWordChar {c : Char} (inside : isWordChar c = true) (cs : List Char) :
    opens (c :: cs) = true := by
  by_cases small : c.toNat < 128
  · have ascii : ∀ n < 128, isWordChar (Char.ofNat n) = true → opens [Char.ofNat n] = true := by decide
    have here := ascii c.toNat small
    rw [Char.ofNat_toNat] at here
    exact here inside
  · have other : c ≠ '/' := by
      rintro rfl
      exact small (by decide)
    have far : ¬ c.val < 128 := small
    rw [isWordChar, if_neg far] at inside
    simp [opens, other, inside]

theorem reads_takeWhile {p : Char → Bool} {w : List Char} (all : ∀ c ∈ w, p c = true)
    (ends : rest.head?.any p = false) : Reads (takeWhile p) (w ++ rest) w rest := by
  have taken : (w ++ rest).takeWhile p = w := by
    rw [List.takeWhile_append_of_pos all]
    cases rest with
    | nil => simp
    | cons c rest => simp_all
  refine .bind (reads_get _) ?_
  simp only [Cursor.rest_before, taken, Cursor.advance_before]
  exact .bind (reads_set _ _) (.pure _ _)

theorem reads_word {w : List Char} (skips : Reads skip cs () (w ++ rest)) (letters : isWord w = true)
    (ends : endsWord rest = true) : Reads word cs (String.ofList w) rest := by
  cases w with
  | nil => cases letters
  | cons c w =>
    simp only [isWord, Bool.and_eq_true, List.all_eq_true] at letters
    have taken : Reads (takeWhile isWordChar) (c :: w ++ rest) (c :: w) rest := by
      refine reads_takeWhile ?_ (by simpa [endsWord] using ends)
      exact List.forall_mem_cons.mpr ⟨letters.1.1, letters.2⟩
    have first : (isWordChar c && !c.isDigit) = true := by simpa using letters.1
    refine .bind skips (.bind (reads_get _) ?_)
    show Reads (ensure (isWordChar c && !c.isDigit) >>= _) _ _ _
    rw [first]
    exact .bind (.pure () _) (.bind taken (.pure _ _))

theorem fails_word (skips : Reads skip cs () body) (other : isWordStart body = false) : Fails word cs := by
  refine .later skips (.later (reads_get _) ?_)
  cases body with
  | nil => exact .bind rfl
  | cons c body =>
    show Fails (ensure (isWordChar c && !c.isDigit) >>= _) _
    rw [show (isWordChar c && !c.isDigit) = false from other]
    exact .bind rfl

/-- A word is read from where the space in front of it ends to where a character of another kind
stands. -/
theorem word_eq_some {c c' : Cursor} {w : String} (read : word c = some (w, c')) :
    ∃ cs, skip c = some ((), .before (w.toList ++ cs)) ∧ c' = .before cs ∧ isWord w.toList = true := by
  obtain ⟨body, skipped, -⟩ := skip_skip c
  rw [Cursor.eq_before c] at read skipped ⊢
  cases start : isWordStart body with
  | false =>
    rw [fails_word skipped start] at read
    cases read
  | true =>
    obtain ⟨front, back, rfl, letters, ends⟩ : ∃ front back, body = front ++ back ∧ isWord front = true ∧
        endsWord back = true := by
      refine ⟨body.takeWhile isWordChar, body.dropWhile isWordChar, ?_, ?_, ?_⟩
      · rw [List.takeWhile_append_dropWhile]
      · cases body with
        | nil => cases start
        | cons x body =>
          have first : isWordChar x = true ∧ x.isDigit = false := by simpa [isWordStart] using start
          simp [isWord, first]
      · have stops := List.head?_dropWhile_not isWordChar body
        cases back : (body.dropWhile isWordChar).head? with
        | none => simp [endsWord, back]
        | some c => simp_all [endsWord]
    rw [reads_word skipped letters ends] at read
    cases read
    exact ⟨back, by simpa using skipped, rfl, by simpa using letters⟩

theorem reads_keyword {k : String} (skips : Reads skip cs () (k.toList ++ rest)) (letters : isWord k.toList = true)
    (ends : endsWord rest = true) : Reads (keyword k) cs () rest := by
  refine .bind (reads_word skips letters ends) ?_
  rw [String.ofList_toList, beq_self_eq_true]
  exact .pure _ _

theorem fails_keyword {k w : String} (read : Reads word cs w rest) (other : w ≠ k) : Fails (keyword k) cs := by
  refine .later read ?_
  rw [beq_false_of_ne other]
  rfl

theorem reads_oneOfKeywords {ks : List String} {w : String} (read : Reads word cs w rest)
    (listed : ks.contains w = true) : Reads (oneOfKeywords ks) cs w rest := by
  refine .bind read ?_
  rw [listed]
  exact .bind (.pure () _) (.pure _ _)

end

/-! ## Nodes -/

section

variable {α : Type} {k : Kind} {cs body rest : List Char}

theorem Reads.node {children : Reader (List Tree)} {ts : List Tree} (skips : Reads skip cs () (body ++ rest))
    (inside : Reads children (body ++ rest) ts rest) :
    Reads (node k children) cs (.mk k .none (String.ofList body) ts) rest := by
  refine .bind (.bind skips (reads_get _)) (.bind inside (.bind (reads_get _) ?_))
  rw [Cursor.textTo_before]
  exact .pure _ _

/-- A node that reaches to the end of the text. -/
theorem Reads.node_end {children : Reader (List Tree)} {ts : List Tree} (skips : Reads skip cs () body)
    (inside : Reads children body ts []) :
    Reads (Tsx.node k children) cs (.mk k .none (String.ofList body) ts) [] := by
  rw [← List.append_nil body] at skips inside
  exact .node skips inside

theorem Reads.leaf {p : Reader α} {a : α} (skips : Reads skip cs () (body ++ rest))
    (inside : Reads p (body ++ rest) a rest) :
    Reads (leaf k p) cs (.mk k .none (String.ofList body) []) rest :=
  .node skips (.bind inside (.pure _ _))

theorem Fails.node {children : Reader (List Tree)} (skips : Reads skip cs () body) (inside : Fails children body) :
    Fails (node k children) cs :=
  .later (.bind skips (reads_get _)) (.bind inside)

theorem Fails.leaf {p : Reader α} (skips : Reads skip cs () body) (inside : Fails p body) : Fails (leaf k p) cs :=
  .node skips (.bind inside)

theorem delivers_close (start : Cursor) (k : Kind) (ts : List Tree) :
    Delivers (fun t => t.kind = k ∧ t.role = .none ∧ t.children = ts) (close start k ts) :=
  .last fun _ => .pure ⟨rfl, rfl, rfl⟩

theorem Delivers.node {children : Reader (List Tree)} {P : List Tree → Prop} (inside : Delivers P children) :
    Delivers (fun t => t.kind = k ∧ t.role = .none ∧ P t.children) (node k children) := by
  refine .last fun start => .bind inside fun ts holds => (delivers_close start k ts).mono ?_
  rintro t ⟨kind, role, rfl⟩
  exact ⟨kind, role, holds⟩

theorem delivers_node (k : Kind) (children : Reader (List Tree)) :
    Delivers (fun t => t.kind = k ∧ t.role = .none) (node k children) :=
  .last fun start => .last fun ts => (delivers_close start k ts).mono fun _ made => ⟨made.1, made.2.1⟩

/-- A name is a word and nothing else. -/
def IsName (t : Tree) : Prop := t.kind = .identifier ∧ isWord t.text.toList = true

theorem delivers_bindingName : Delivers (fun t => IsName t ∧ t.role = .none ∧ t.children = []) bindingName := by
  intro c t c' read
  obtain ⟨cs, skipped, done⟩ := skip_skip c
  rw [Cursor.eq_before c] at read skipped
  cases taken : word (.before cs) with
  | none =>
    have fails : Fails bindingName c.rest := .leaf skipped taken
    rw [fails] at read
    cases read
  | some result =>
    obtain ⟨w, c''⟩ := result
    obtain ⟨rest, again, rfl, letters⟩ := word_eq_some taken
    rw [done] at again
    have whole : cs = w.toList ++ rest := congrArg (fun r => (r.getD ((), .before [])).2.rest) again
    subst whole
    have reads : Reads bindingName c.rest (.mk .identifier .none (String.ofList w.toList) []) rest :=
      .leaf skipped taken
    rw [reads] at read
    cases read
    exact ⟨⟨rfl, by simpa [Tree.text] using letters⟩, rfl, rfl⟩

end

end Recast.Tsx
