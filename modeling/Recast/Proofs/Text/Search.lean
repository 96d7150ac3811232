import Mathlib.Data.List.DropRight
import Recast.Text.Blank
import Recast.Text.Search

/-!
# Facts about searching and trimming

`after?` takes off exactly what it is asked for, `cut?` splits at the first occurrence, and trimming
only looks at the ends of a text.
-/

set_option autoImplicit false

namespace Recast.Text

theorem append_eq_ofList {s t : String} {front back : List Char} (left : s = String.ofList front)
    (right : t = String.ofList back) : s ++ t = String.ofList (front ++ back) := by
  rw [left, right, String.ofList_append]

/-! ## Leading text -/

@[simp]
theorem after?_append (p rest : List Char) : after? p (p ++ rest) = some rest := by
  induction p with
  | nil => simp [after?]
  | cons c p ih => simp [after?, ih]

theorem after?_eq_some_iff {p cs rest : List Char} : after? p cs = some rest ↔ cs = p ++ rest := by
  constructor
  · intro found
    fun_induction after? p cs with
    | case1 cs => simpa using found
    | case2 => simp at found
    | case3 p ps cs ih => rw [ih found, List.cons_append]
    | case4 => simp at found
  · rintro rfl
    exact after?_append p rest

theorem after?_eq_none_of_head {p q : Char} (h : p ≠ q) (ps qs : List Char) :
    after? (p :: ps) (q :: qs) = none := by
  simp [after?, h]

/-- What starts in front of a character that it lacks ends in front of it. -/
theorem after?_append_of_head {p back : List Char} (stop : ∀ c ∈ back.head?, c ∉ p) (front : List Char) :
    after? p (front ++ back) = (after? p front).map (· ++ back) := by
  induction p generalizing front with
  | nil => rfl
  | cons x p ih =>
    have stop' : ∀ c ∈ back.head?, c ∉ p := fun c first inside => stop c first (.tail x inside)
    cases front with
    | nil =>
      cases back with
      | nil => rfl
      | cons c back =>
        have other : x ≠ c := fun e => stop c rfl (by simp [e])
        simp [after?, other]
    | cons c front =>
      rw [List.cons_append, after?, after?, ih stop']
      split <;> rfl

/-! ## The first occurrence -/

theorem cut?_singleton_append {c : Char} {text : List Char} (h : c ∉ text) (rest : List Char) :
    cut? [c] (text ++ c :: rest) = some (text, rest) := by
  induction text with
  | nil => simp [cut?, after?]
  | cons d text ih =>
    have hd : c ≠ d := fun e => h (by simp [e])
    have ht : c ∉ text := fun e => h (by simp [e])
    simp [cut?, after?, hd, ih ht]

/-- There is one way to split a text at the first place where a character stands. -/
theorem append_cons_inj_of_not_mem {c : Char} {a b x y : List Char} (ha : c ∉ a) (hb : c ∉ b)
    (h : a ++ c :: x = b ++ c :: y) : a = b ∧ x = y := by
  have cut := cut?_singleton_append ha x
  rw [h, cut?_singleton_append hb y] at cut
  simp only [Option.some.injEq, Prod.mk.injEq] at cut
  exact ⟨cut.1.symm, cut.2.symm⟩

/-- A text that starts a longer one does so in front of every character that it lacks. -/
theorem append_eq_of_not_mem {c : Char} {p front back rest : List Char} (h : c ∉ p)
    (whole : front ++ c :: back = p ++ rest) : ∃ front', front = p ++ front' ∧ front' ++ c :: back = rest := by
  rcases List.append_eq_append_iff.mp whole with ⟨more, rfl, shape⟩ | ⟨front', rfl, rfl⟩
  · cases more with
    | nil => exact ⟨[], by simp, by simpa using shape⟩
    | cons d more =>
      rw [List.cons_append, List.cons.injEq] at shape
      exact absurd (by simp [shape.1]) h
  · exact ⟨front', rfl, rfl⟩

theorem cut?_eq_some {p cs front back : List Char} (h : cut? p cs = some (front, back)) :
    cs = front ++ (p ++ back) := by
  induction cs generalizing front with
  | nil =>
    simp only [cut?] at h
    split at h
    · simp_all
    · simp at h
  | cons c cs ih =>
    simp only [cut?] at h
    cases found : after? p (c :: cs) with
    | some rest =>
      simp only [found, Option.some.injEq, Prod.mk.injEq] at h
      obtain ⟨rfl, rfl⟩ := h
      rw [List.nil_append]
      exact after?_eq_some_iff.mp found
    | none =>
      simp only [found, Option.map_eq_some_iff] at h
      obtain ⟨⟨front', rest⟩, inside, h⟩ := h
      simp only [Prod.mk.injEq] at h
      obtain ⟨rfl, rfl⟩ := h
      rw [ih inside, List.cons_append]

/-- Text behind the first occurrence does not matter for finding it. -/
theorem cut?_append {p cs front rest : List Char} (h : cut? p cs = some (front, rest))
    (nonempty : p ≠ []) (back : List Char) : cut? p (cs ++ back) = some (front, rest ++ back) := by
  induction cs generalizing front with
  | nil => simp [cut?, nonempty] at h
  | cons c cs ih =>
    simp only [cut?] at h
    cases found : after? p (c :: cs) with
    | some rest' =>
      simp only [found, Option.some.injEq, Prod.mk.injEq] at h
      obtain ⟨rfl, rfl⟩ := h
      have whole : after? p (c :: (cs ++ back)) = some (rest' ++ back) := by
        rw [after?_eq_some_iff, ← List.cons_append, after?_eq_some_iff.mp found, List.append_assoc]
      simp only [List.cons_append, cut?, whole]
    | none =>
      simp only [found, Option.map_eq_some_iff] at h
      obtain ⟨⟨front', rest'⟩, inside, h⟩ := h
      simp only [Prod.mk.injEq] at h
      obtain ⟨rfl, rfl⟩ := h
      -- an occurrence further on leaves no room for one here that reaches into `back`
      have room : p.length ≤ (c :: cs).length := by
        have lengths := congrArg List.length (cut?_eq_some inside)
        simp only [List.length_append, List.length_cons] at lengths ⊢
        omega
      have nothing : after? p (c :: (cs ++ back)) = none := by
        by_contra some'
        obtain ⟨tail, start⟩ := Option.ne_none_iff_exists'.mp some'
        have whole : p <+: c :: cs ++ back := ⟨tail, (after?_eq_some_iff.mp start).symm⟩
        obtain ⟨tail', here⟩ := List.prefix_of_prefix_length_le whole (List.prefix_append _ _) room
        rw [after?_eq_some_iff.mpr here.symm] at found
        exact absurd found (by simp)
      simp only [List.cons_append, cut?, nothing, ih inside, Option.map_some]

theorem cut?_append_of_not_mem {x : Char} {p front : List Char} (h : x ∉ front) (cs : List Char) :
    cut? (x :: p) (front ++ cs) = (cut? (x :: p) cs).map fun r => (front ++ r.1, r.2) := by
  induction front with
  | nil => simp
  | cons c front ih =>
    have other : x ≠ c := fun e => h (by simp [e])
    have inFront : x ∉ front := fun e => h (by simp [e])
    simp only [List.cons_append, cut?, after?_eq_none_of_head other, ih inFront, Option.map_map]
    rfl

/-- An occurrence in front of its own first character, which it holds only once, ends in front of it. -/
theorem cut?_append_cons {c : Char} {p : List Char} (once : c ∉ p) (front back : List Char) :
    cut? (c :: p) (front ++ c :: back) = ((cut? (c :: p) front).map fun r => (r.1, r.2 ++ c :: back)).or
      ((cut? (c :: p) (c :: back)).map fun r => (front ++ r.1, r.2)) := by
  have stop : ∀ d ∈ (c :: back).head?, d ∉ p := by simpa using once
  induction front with
  | nil => simp [cut?]
  | cons d front ih =>
    have here : after? (c :: p) (d :: front ++ c :: back) =
        (after? (c :: p) (d :: front)).map (· ++ c :: back) := by
      rw [List.cons_append, after?, after?, after?_append_of_head stop]
      split <;> rfl
    rw [List.cons_append] at here ⊢
    rw [cut?, here, cut?.eq_2 _ d front]
    cases after? (c :: p) (d :: front) with
    | some rest => rfl
    | none =>
      simp only [Option.map_none, ih, Option.map_or, Option.map_map]
      rfl

theorem occurs_cons_eq_false {p : List Char} {c : Char} {cs : List Char}
    (h : occurs p (c :: cs) = false) : after? p (c :: cs) = none ∧ occurs p cs = false := by
  simp only [occurs, cut?] at h
  cases found : after? p (c :: cs) with
  | some rest => simp [found] at h
  | none => simpa [found, occurs] using h

theorem occurs_of_append {p front back : List Char} (h : occurs p (front ++ back) = false) :
    occurs p back = false := by
  induction front with
  | nil => exact h
  | cons c front ih => exact ih (occurs_cons_eq_false h).2

theorem occurs_iff {p cs : List Char} : occurs p cs = true ↔ p <:+: cs := by
  constructor
  · intro found
    obtain ⟨⟨front, back⟩, cut⟩ := Option.isSome_iff_exists.mp found
    exact ⟨front, back, by rw [List.append_assoc, ← cut?_eq_some cut]⟩
  · rintro ⟨front, back, rfl⟩
    by_contra missing
    rw [List.append_assoc, Bool.not_eq_true] at missing
    have atStart : occurs p (p ++ back) = false := occurs_of_append missing
    cases p with
    | nil => cases back <;> simp [occurs, cut?, after?] at atStart
    | cons c p =>
      rw [List.cons_append] at atStart
      have nothing := (occurs_cons_eq_false atStart).1
      rw [← List.cons_append, after?_append] at nothing
      cases nothing

/-- What is cut off at the first occurrence does not matter for finding it. -/
theorem cut?_of_append {p front back : List Char} (nonempty : p ≠ [])
    (h : cut? p (front ++ (p ++ back)) = some (front, back)) : cut? p (front ++ p) = some (front, []) := by
  have inside : occurs p (front ++ p) = true := occurs_iff.mpr ⟨front, [], by simp⟩
  obtain ⟨⟨start, rest⟩, cut⟩ := Option.isSome_iff_exists.mp inside
  have whole := cut?_append cut nonempty back
  rw [List.append_assoc, h] at whole
  simp only [Option.some.injEq, Prod.mk.injEq, List.self_eq_append_left] at whole
  obtain ⟨rfl, rfl⟩ := whole
  exact cut

theorem not_mem_of_cut?_singleton {c : Char} {cs front back : List Char} (h : cut? [c] cs = some (front, back)) :
    c ∉ front := by
  intro inside
  obtain ⟨start, rest, rfl, fresh⟩ := List.eq_append_cons_of_mem inside
  have text := cut?_eq_some h
  rw [List.append_assoc, List.cons_append] at text
  rw [text, cut?_singleton_append fresh] at h
  simp at h

/-! ## Trimming -/

theorem dropEndWhile_append_singleton_of_pos {p : Char → Bool} {c : Char} (h : p c = true)
    (cs : List Char) : dropEndWhile p (cs ++ [c]) = dropEndWhile p cs :=
  List.rdropWhile_concat_pos p cs c h

theorem dropEndWhile_append_singleton_of_neg {p : Char → Bool} {c : Char} (h : p c = false)
    (cs : List Char) : dropEndWhile p (cs ++ [c]) = cs ++ [c] :=
  List.rdropWhile_concat_neg p cs c (by simp [h])

theorem dropEndWhile_append_of_ne_nil {p : Char → Bool} {cs : List Char}
    (h : dropEndWhile p cs ≠ []) (front : List Char) :
    dropEndWhile p (front ++ cs) = front ++ dropEndWhile p cs := by
  have h' : (cs.reverse.dropWhile p).isEmpty = false := by
    simpa [dropEndWhile] using h
  simp [dropEndWhile, List.dropWhile_append, h']

theorem dropEndWhile_append_of_eq_nil {p : Char → Bool} {cs : List Char}
    (h : dropEndWhile p cs = []) (front : List Char) :
    dropEndWhile p (front ++ cs) = dropEndWhile p front := by
  have h' : (cs.reverse.dropWhile p).isEmpty = true := by
    simpa [dropEndWhile] using h
  simp only [dropEndWhile, List.reverse_append, List.dropWhile_append, h', if_true]

theorem dropEndWhile_eq_nil_of_all {p : Char → Bool} {cs : List Char} (h : ∀ c ∈ cs, p c = true) :
    dropEndWhile p cs = [] := by
  simpa [dropEndWhile] using h

/-- Dropping matching characters in front leaves the last character that does not match. -/
theorem getLast?_trimWhile (p : Char → Bool) (cs : List Char) :
    (trimWhile p cs).getLast? = (dropEndWhile p cs).getLast? := by
  have front : ∀ c ∈ cs.takeWhile p, p c = true := fun c hc => List.mem_takeWhile_imp hc
  have parts : cs.takeWhile p ++ cs.dropWhile p = cs := List.takeWhile_append_dropWhile
  by_cases h : dropEndWhile p (cs.dropWhile p) = []
  · have whole := dropEndWhile_append_of_eq_nil h (cs.takeWhile p)
    rw [parts, dropEndWhile_eq_nil_of_all front] at whole
    rw [trimWhile, h, whole]
  · have whole := dropEndWhile_append_of_ne_nil h (cs.takeWhile p)
    rw [parts] at whole
    rw [trimWhile, whole, List.getLast?_append_of_ne_nil _ h]

theorem trimWhile_append_singleton {p : Char → Bool} {c : Char} (h : p c = true) (cs : List Char) :
    trimWhile p (cs ++ [c]) = trimWhile p cs := by
  by_cases all : cs.dropWhile p = []
  · simp [trimWhile, List.dropWhile_append, all, h]
  · have kept : (cs ++ [c]).dropWhile p = cs.dropWhile p ++ [c] := by
      simp [List.dropWhile_append, all]
    rw [trimWhile, kept, dropEndWhile_append_singleton_of_pos h, trimWhile]

theorem dropWhile_of_isPrefix {α : Type} {p : α → Bool} {part cs : List α} (start : part <+: cs)
    (same : cs.dropWhile p = cs) : part.dropWhile p = part := by
  obtain ⟨rest, rfl⟩ := start
  cases part with
  | nil => rfl
  | cons c part =>
    rw [List.dropWhile_eq_self_iff] at same ⊢
    simpa using same

/-- What is dropped in front is not found there again when the end is dropped too. -/
theorem dropWhile_rdropWhile_dropWhile {α : Type} (p : α → Bool) (cs : List α) :
    ((cs.dropWhile p).rdropWhile p).dropWhile p = (cs.dropWhile p).rdropWhile p :=
  dropWhile_of_isPrefix (List.rdropWhile_prefix p _) (List.dropWhile_idempotent p cs)

/-- A trimmed text is trimmed already. -/
theorem trimWhile_trimWhile (p : Char → Bool) (cs : List Char) :
    trimWhile p (trimWhile p cs) = trimWhile p cs := by
  have starts : (trimWhile p cs).dropWhile p = trimWhile p cs := dropWhile_rdropWhile_dropWhile p cs
  rw [trimWhile, starts]
  exact List.rdropWhile_idempotent p _

theorem dropWhile_eq_self_iff_head {p : Char → Bool} {cs : List Char} :
    cs.dropWhile p = cs ↔ cs.head?.any p = false := by
  cases cs with
  | nil => simp
  | cons c cs => simp [List.dropWhile_eq_self_iff]

theorem dropEndWhile_eq_self_iff_getLast {p : Char → Bool} {cs : List Char} :
    dropEndWhile p cs = cs ↔ cs.getLast?.any p = false := by
  rw [dropEndWhile, List.reverse_eq_iff, dropWhile_eq_self_iff_head, List.head?_reverse]

/-- A text is trimmed exactly if there is nothing to drop at either end. -/
theorem trimWhile_eq_self_iff {p : Char → Bool} {cs : List Char} :
    trimWhile p cs = cs ↔ cs.dropWhile p = cs ∧ dropEndWhile p cs = cs := by
  constructor
  · intro same
    have shorter : (trimWhile p cs).length ≤ (cs.dropWhile p).length :=
      (List.rdropWhile_prefix p (cs.dropWhile p)).length_le
    rw [same] at shorter
    have front := (List.dropWhile_suffix p).eq_of_length_le shorter
    exact ⟨front, by rwa [trimWhile, front] at same⟩
  · rintro ⟨front, back⟩
    rw [trimWhile, front, back]

theorem trimWhile_eq_nil_iff {p : Char → Bool} {cs : List Char} :
    trimWhile p cs = [] ↔ ∀ c ∈ cs, p c = true := by
  constructor
  · intro nothing c member
    have rest : ∀ d ∈ cs.dropWhile p, p d = true := List.rdropWhile_eq_nil_iff.mp nothing
    rw [← List.takeWhile_append_dropWhile (p := p) (l := cs), List.mem_append] at member
    exact member.elim List.mem_takeWhile_imp (rest c)
  · intro all
    rw [trimWhile, List.dropWhile_eq_nil_iff.mpr all]
    rfl

theorem strip_strip (s : String) : strip (strip s) = strip s := by
  rw [strip, strip, String.toList_ofList, stripChars, stripChars, trimWhile_trimWhile]

end Recast.Text
