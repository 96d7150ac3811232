import Mathlib.Data.Option.Basic
import Recast.Proofs.Text.Search
import Recast.Text.Substitution

/-!
# Scanning step by step

A scan is determined by what its rule says at each place: a place where the rule finds nothing adds
one plain character, and a place where it finds something adds one recognized piece and goes on
behind it. A text on which a rule is silent is passed over as it is.
-/

set_option autoImplicit false

namespace Recast.Text

variable {α : Type}

/-- The character in front of what follows a text. -/
def lastOr (previous : Option Char) (text : List Char) : Option Char := text.getLast?.or previous

@[simp]
theorem lastOr_nil (previous : Option Char) : lastOr previous [] = previous := rfl

theorem lastOr_cons (previous : Option Char) (c : Char) (text : List Char) :
    lastOr previous (c :: text) = lastOr (some c) text := by
  cases h : text.getLast? <;> simp [lastOr, List.getLast?_cons, h]

@[simp]
theorem lastOr_concat (previous : Option Char) (text : List Char) (c : Char) :
    lastOr previous (text ++ [c]) = some c := by
  simp [lastOr]

theorem segmentsFrom_skip (rule : Rule α) (text rest : List Char) (previous : Option Char) :
    segmentsFrom rule text.length previous (text ++ rest) =
      segmentsFrom rule 0 (lastOr previous text) rest := by
  induction text generalizing previous with
  | nil => simp
  | cons c text ih => simp only [List.length_cons, List.cons_append, segmentsFrom, ih, lastOr_cons]

theorem segmentsFrom_of_none {rule : Rule α} {previous : Option Char} {c : Char} {cs : List Char}
    (h : rule previous (c :: cs) = none) :
    segmentsFrom rule 0 previous (c :: cs) = pushPlain c (segmentsFrom rule 0 (some c) cs) := by
  simp [segmentsFrom, h]

theorem segmentsFrom_of_some {rule : Rule α} {previous : Option Char} {text rest : List Char} {a : α}
    (nonempty : text ≠ []) (h : rule previous (text ++ rest) = some (a, rest)) :
    segmentsFrom rule 0 previous (text ++ rest) =
      .hit text a :: segmentsFrom rule 0 (lastOr previous text) rest := by
  obtain ⟨c, text, rfl⟩ := List.exists_cons_of_ne_nil nonempty
  have length : (c :: (text ++ rest)).length - rest.length - 1 = text.length := by
    simp only [List.length_cons, List.length_append]
    omega
  rw [List.cons_append] at h ⊢
  simp only [segmentsFrom, h, length, List.take_succ_cons, List.take_left', segmentsFrom_skip,
    lastOr_cons]

/-- A rule that does not look at the character in front scans the same behind every character. -/
theorem segmentsFrom_previous {rule : Rule α} (h : ∀ p q cs, rule p cs = rule q cs) (skip : Nat)
    (p q : Option Char) (cs : List Char) :
    segmentsFrom rule skip p cs = segmentsFrom rule skip q cs := by
  cases cs with
  | nil => simp [segmentsFrom]
  | cons c cs =>
    cases skip with
    | zero => simp only [segmentsFrom, h p q]
    | succ skip => simp only [segmentsFrom]

/-! ## Places where a rule finds nothing -/

/-- The rule finds nothing at any place of a text that stands behind `previous` and in front of
`rest`. -/
def Silent (rule : Rule α) : (previous : Option Char) → (text rest : List Char) → Prop
  | _, [], _ => True
  | previous, c :: text, rest =>
    rule previous (c :: (text ++ rest)) = none ∧ Silent rule (some c) text rest

theorem silent_append (rule : Rule α) (previous : Option Char) (front back rest : List Char) :
    Silent rule previous (front ++ back) rest ↔
      Silent rule previous front (back ++ rest) ∧ Silent rule (lastOr previous front) back rest := by
  induction front generalizing previous with
  | nil => simp [Silent]
  | cons c front ih =>
    simp only [List.cons_append, Silent, ih, lastOr_cons, List.append_assoc, and_assoc]

/-- A rule is silent on characters with which nothing starts that it recognizes. -/
theorem silent_of_forall {rule : Rule α} {text : List Char}
    (h : ∀ c ∈ text, ∀ p cs, rule p (c :: cs) = none) (previous : Option Char) (rest : List Char) :
    Silent rule previous text rest := by
  induction text generalizing previous with
  | nil => trivial
  | cons c text ih => exact ⟨h c (by simp) _ _, ih (fun d hd => h d (by simp [hd])) _⟩

theorem cutHitFrom?_eq_none_iff (rule : Rule α) (previous : Option Char) (cs : List Char) :
    cutHitFrom? rule previous cs = none ↔ Silent rule previous cs [] := by
  induction cs generalizing previous with
  | nil => simp [cutHitFrom?, Silent]
  | cons c cs ih =>
    cases found : rule previous (c :: cs) with
    | none => simp [cutHitFrom?, found, Silent, ih]
    | some hit => simp [cutHitFrom?, found, Silent]

theorem recognizes_eq_false_iff (rule : Rule α) (cs : List Char) :
    recognizes rule cs = false ↔ Silent rule none cs [] := by
  rw [← cutHitFrom?_eq_none_iff, recognizes, cutHit?, Option.isSome_eq_false_iff,
    Option.isNone_iff_eq_none]

/-! ## Recognized pieces -/

/-- Whatever a rule recognizes is not empty and stands at the start of the text. -/
def Consumes (rule : Rule α) : Prop :=
  ∀ p cs a rest, rule p cs = some (a, rest) → ∃ raw, raw ≠ [] ∧ cs = raw ++ rest

theorem hit_mem_pushPlain {c : Char} {pieces : List (Segment α)} {raw : List Char} {a : α} :
    .hit raw a ∈ pushPlain c pieces ↔ .hit raw a ∈ pieces := by
  unfold pushPlain
  split <;> simp

/-- Each recognized piece is recognized by the rule at the place where it stands. -/
theorem rule_of_hit_mem {rule : Rule α} (consumes : Consumes rule) {skip : Nat} {p : Option Char}
    {cs raw : List Char} {a : α} (member : .hit raw a ∈ segmentsFrom rule skip p cs) :
    raw ≠ [] ∧ ∃ q rest, rule q (raw ++ rest) = some (a, rest) := by
  fun_induction segmentsFrom rule skip p cs with
  | case1 => simp at member
  | case2 skip p c cs ih => exact ih member
  | case3 p c cs b rest found length ih =>
    obtain ⟨piece, nonempty, shape⟩ := consumes p _ b rest found
    have pieceLength : length - 1 + 1 = piece.length := by
      have positive : 0 < piece.length := List.length_pos_of_ne_nil nonempty
      have total : (c :: cs).length = piece.length + rest.length := by
        rw [shape, List.length_append]
      omega
    rcases List.mem_cons.mp member with here | later
    · simp only [Segment.hit.injEq] at here
      rw [pieceLength, shape, List.take_left' rfl] at here
      obtain ⟨rfl, rfl⟩ := here
      exact ⟨nonempty, p, rest, shape ▸ found⟩
    · exact ih later
  | case4 p c cs _ ih => exact ih (hit_mem_pushPlain.mp member)

theorem cutHitFrom?_eq_none_iff_hit (rule : Rule α) (p : Option Char) (cs : List Char) :
    cutHitFrom? rule p cs = none ↔ ∀ raw a, .hit raw a ∉ segmentsFrom rule 0 p cs := by
  induction cs generalizing p with
  | nil => simp [cutHitFrom?, segmentsFrom]
  | cons c cs ih =>
    cases found : rule p (c :: cs) with
    | none => simp [cutHitFrom?, segmentsFrom, found, hit_mem_pushPlain, ih]
    | some hit =>
      obtain ⟨a, rest⟩ := hit
      simp only [cutHitFrom?, segmentsFrom, found, reduceCtorEq, false_iff]
      exact fun none => none _ _ List.mem_cons_self

theorem recognizes_eq_false_iff_hit (rule : Rule α) (cs : List Char) :
    recognizes rule cs = false ↔ ∀ raw a, .hit raw a ∉ segments rule cs := by
  rw [segments, ← cutHitFrom?_eq_none_iff_hit, recognizes, cutHit?, Option.isSome_eq_false_iff,
    Option.isNone_iff_eq_none]

/-! ## Replacing -/

/-- Replacement from a place on, where `previous` is the character in front. -/
def substituteBehind (rule : Rule (List Char)) (previous : Option Char) (cs : List Char) :
    List Char :=
  (segmentsFrom rule 0 previous cs).flatMap (Segment.replaced id)

section Substitute

variable {rule : Rule (List Char)} {previous : Option Char}

theorem substitute_eq (rule : Rule (List Char)) (cs : List Char) :
    substitute rule cs = substituteBehind rule none cs := rfl

@[simp]
theorem substituteBehind_nil (rule : Rule (List Char)) (previous : Option Char) :
    substituteBehind rule previous [] = [] := by
  simp [substituteBehind, segmentsFrom]

theorem flatMap_replaced_pushPlain (c : Char) (pieces : List (Segment (List Char))) :
    (pushPlain c pieces).flatMap (Segment.replaced id) =
      c :: pieces.flatMap (Segment.replaced id) := by
  unfold pushPlain
  split <;> simp [Segment.replaced]

theorem substituteBehind_of_none {c : Char} {cs : List Char} (h : rule previous (c :: cs) = none) :
    substituteBehind rule previous (c :: cs) = c :: substituteBehind rule (some c) cs := by
  rw [substituteBehind, segmentsFrom_of_none h, flatMap_replaced_pushPlain, substituteBehind]

theorem substituteBehind_of_some {text new rest : List Char} (nonempty : text ≠ [])
    (h : rule previous (text ++ rest) = some (new, rest)) :
    substituteBehind rule previous (text ++ rest) =
      new ++ substituteBehind rule (lastOr previous text) rest := by
  rw [substituteBehind, segmentsFrom_of_some nonempty h, List.flatMap_cons, substituteBehind]
  rfl

/-- A rule that does not look at the character in front replaces the same behind every character. -/
theorem substituteBehind_previous (h : ∀ p q cs, rule p cs = rule q cs) (p q : Option Char)
    (cs : List Char) : substituteBehind rule p cs = substituteBehind rule q cs := by
  rw [substituteBehind, segmentsFrom_previous h 0 p q, substituteBehind]

theorem substituteBehind_of_silent {text rest : List Char} (h : Silent rule previous text rest) :
    substituteBehind rule previous (text ++ rest) =
      text ++ substituteBehind rule (lastOr previous text) rest := by
  induction text generalizing previous with
  | nil => simp
  | cons c text ih =>
    rw [List.cons_append, substituteBehind_of_none h.1, ih h.2, lastOr_cons, List.cons_append]

/-- What is the same whichever of the recognized texts are replaced is the same after all of them are. -/
theorem substitute_keeps {β : Type} (measure : List Char → β) (consumes : Consumes rule)
    (keeps : ∀ p raw new rest, rule p (raw ++ rest) = some (new, rest) →
      ∀ front back, measure (front ++ (raw ++ back)) = measure (front ++ (new ++ back)))
    (cs : List Char) : measure (substitute rule cs) = measure cs := by
  have general : ∀ (pieces : List (Segment (List Char))), (∀ raw new, .hit raw new ∈ pieces →
      ∀ front back, measure (front ++ (raw ++ back)) = measure (front ++ (new ++ back))) →
      ∀ front, measure (front ++ pieces.flatMap (Segment.replaced id)) =
        measure (front ++ pieces.flatMap Segment.text) := by
    intro pieces each
    induction pieces with
    | nil => exact fun _ => rfl
    | cons piece pieces ih =>
      intro front
      have later := ih fun raw new member => each raw new (.tail _ member)
      rw [List.flatMap_cons, List.flatMap_cons]
      cases piece with
      | plain t => simpa [Segment.replaced, Segment.text] using later (front ++ t)
      | hit raw new =>
        rw [Segment.replaced, Segment.text, id, each raw new List.mem_cons_self, ← List.append_assoc, later,
          List.append_assoc]
  have whole := general (segments rule cs) (fun raw new member => by
    obtain ⟨-, p, rest, found⟩ := rule_of_hit_mem consumes member
    exact keeps p raw new rest found) []
  rwa [List.nil_append, List.nil_append, flatMap_text_segments] at whole

end Substitute

/-! ## Building blocks of rules -/

theorem dropWhile_append_of_head {p : Char → Bool} {front back : List Char}
    (all : ∀ c ∈ front, p c = true) (stop : back.head?.any p = false) :
    (front ++ back).dropWhile p = back := by
  rw [List.dropWhile_append_of_pos all]
  cases back with
  | nil => rfl
  | cons c back => exact List.dropWhile_cons_of_neg (by simpa using stop)

theorem takeWhile_append_of_head {p : Char → Bool} {front back : List Char}
    (all : ∀ c ∈ front, p c = true) (stop : back.head?.any p = false) :
    (front ++ back).takeWhile p = front := by
  rw [List.takeWhile_append_of_pos all]
  cases back with
  | nil => simp
  | cons c back => rw [List.takeWhile_cons_of_neg (by simpa using stop), List.append_nil]

/-- Text splits in one way into a run of a class of characters and what does not continue it. -/
theorem append_inj_of_head {p : Char → Bool} {s t a b : List Char} (hs : ∀ c ∈ s, p c = true)
    (ht : ∀ c ∈ t, p c = true) (ha : a.head?.any p = false) (hb : b.head?.any p = false) (same : s ++ a = t ++ b) :
    s = t ∧ a = b := by
  have front : s = t := by
    rw [← takeWhile_append_of_head hs ha, same, takeWhile_append_of_head ht hb]
  exact ⟨front, List.append_cancel_left (front ▸ same)⟩

theorem afterWord?_eq_some {word : String} {cs rest : List Char} (h : afterWord? word cs = some rest) :
    ∃ blanks, (∀ c ∈ blanks, isBlank c = true) ∧ cs = blanks ++ (word.toList ++ rest) := by
  refine ⟨cs.takeWhile isBlank, fun c hc => List.mem_takeWhile_imp hc, ?_⟩
  rw [← after?_eq_some_iff.mp h, List.takeWhile_append_dropWhile]

theorem afterWord?_append {word : String} {blanks : List Char}
    (all : ∀ c ∈ blanks, isBlank c = true) (stop : word.toList.head?.any isBlank = false)
    (nonempty : word.toList ≠ []) (rest : List Char) :
    afterWord? word (blanks ++ (word.toList ++ rest)) = some rest := by
  have head : (word.toList ++ rest).head?.any isBlank = false := by
    rwa [List.head?_append_of_ne_nil _ nonempty]
  rw [afterWord?, dropWhile_append_of_head all head, after?_append]

theorem wordRun?_eq_some {cs word rest : List Char} (h : wordRun? cs = some (word, rest)) :
    word ≠ [] ∧ (∀ c ∈ word, isWord c = true) ∧ cs = word ++ rest := by
  simp only [wordRun?] at h
  split at h
  · simp at h
  · rename_i nonempty
    simp only [Option.some.injEq, Prod.mk.injEq] at h
    obtain ⟨rfl, rfl⟩ := h
    exact ⟨nonempty, fun c hc => List.mem_takeWhile_imp hc, List.takeWhile_append_dropWhile.symm⟩

theorem wordRun?_append {word rest : List Char} (nonempty : word ≠ [])
    (all : ∀ c ∈ word, isWord c = true) (stop : rest.head?.any isWord = false) :
    wordRun? (word ++ rest) = some (word, rest) := by
  simp only [wordRun?, takeWhile_append_of_head all stop, dropWhile_append_of_head all stop,
    if_neg nonempty]

end Recast.Text
