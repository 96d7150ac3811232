import Recast.ClassExpr.Basic
import Recast.Proofs.Text.Literal

/-!
# Values of attributes

The value of an attribute stands between double quotes, and a double quote in it is written as a character
reference. `decoded` reads the references back, `scan?` finds the value up to the next double quote. The
contents of a string literal that stand there as they are read back as what the literal denotes exactly
if they hold neither a double quote nor an escape nor a reference.
-/

set_option autoImplicit false

namespace Recast.Quoted

open Recast.ClassExpr Recast.Literal Recast.Text

/-! ## References -/

/-- The reference to a double quote. -/
def reference : List Char := ['&', 'q', 'u', 'o', 't', ';']

theorem quoteReference_quote : quoteReference '"' = reference := by decide

theorem quoteReference_of_ne {c : Char} (other : c ≠ '"') : quoteReference c = [c] := if_neg other

/-- A value with its references to double quotes read back. -/
def decoded : List Char → List Char
  | [] => []
  | '&' :: 'q' :: 'u' :: 'o' :: 't' :: ';' :: cs => '"' :: decoded cs
  | c :: cs => c :: decoded cs

theorem decoded_reference (cs : List Char) : decoded (reference ++ cs) = '"' :: decoded cs := rfl

theorem decoded_cons {c : Char} {cs : List Char} (other : ¬ reference <+: c :: cs) :
    decoded (c :: cs) = c :: decoded cs := by
  rw [decoded.eq_def]
  split
  · contradiction
  · rename_i rest same
    exact absurd ⟨rest, same.symm⟩ other
  · simp_all

theorem decoded_cons_of_ne {c : Char} (other : c ≠ '&') (cs : List Char) :
    decoded (c :: cs) = c :: decoded cs := by
  refine decoded_cons fun ⟨rest, same⟩ => ?_
  exact other (List.cons.inj same).1.symm

/-- A reference is shorter when it is read back. -/
theorem decoded_length_lt {cs : List Char} (holds : reference <:+: cs) : (decoded cs).length < cs.length := by
  have bound : ∀ ds : List Char, (decoded ds).length ≤ ds.length := by
    intro ds
    fun_induction decoded ds with
    | case1 => exact Nat.le_refl 0
    | case2 ds ih => simp; omega
    | case3 d ds other ih => simp; omega
  fun_induction decoded cs with
  | case1 => exact absurd (List.infix_nil.mp holds) (by decide)
  | case2 cs ih =>
    have := bound cs
    simp
    omega
  | case3 c cs other ih =>
    rcases List.infix_cons_iff.mp holds with ⟨rest, here⟩ | later
    · obtain ⟨rfl, rfl⟩ := List.cons.inj here
      exact (other rest rfl rfl).elim
    · simpa using ih later

theorem decoded_eq_self_iff {cs : List Char} : decoded cs = cs ↔ ¬ reference <:+: cs := by
  constructor
  · intro same holds
    have shorter := decoded_length_lt holds
    rw [same] at shorter
    exact Nat.lt_irrefl _ shorter
  · intro free
    induction cs with
    | nil => rfl
    | cons c cs ih =>
      have here : ¬ reference <+: c :: cs := fun start => free start.isInfix
      rw [decoded_cons here, ih fun later => free (List.infix_cons later)]

theorem prefix_of_prefix_flatMap {p cs : List Char} (plain : ∀ c ∈ p, c ≠ '&')
    (start : p <+: cs.flatMap quoteReference) : p <+: cs := by
  induction p generalizing cs with
  | nil => exact List.nil_prefix
  | cons x p ih =>
    cases cs with
    | nil => exact absurd start (by simp)
    | cons c cs =>
      rw [List.flatMap_cons] at start
      by_cases quote : c = '"'
      · rw [quote, quoteReference_quote] at start
        exact absurd (List.cons_prefix_cons.mp start).1 (plain x (by simp))
      · rw [quoteReference_of_ne quote] at start
        obtain ⟨rfl, rest⟩ := List.cons_prefix_cons.mp start
        exact List.cons_prefix_cons.mpr ⟨rfl, ih (fun c member => plain c (by simp [member])) rest⟩

/-- Writing double quotes as references changes nothing about how a value is read back. -/
theorem decoded_flatMap_quoteReference (cs : List Char) :
    decoded (cs.flatMap quoteReference) = decoded cs := by
  fun_induction decoded cs with
  | case1 => rfl
  | case2 cs ih =>
    rw [← ih]
    rfl
  | case3 c cs other ih =>
    rw [List.flatMap_cons]
    by_cases quote : c = '"'
    · rw [quote, quoteReference_quote, decoded_reference, ih]
    · rw [quoteReference_of_ne quote, List.singleton_append, decoded_cons, ih]
      intro start
      obtain ⟨rfl, rest⟩ := List.cons_prefix_cons.mp start
      obtain ⟨back, here⟩ := prefix_of_prefix_flatMap (by simp) rest
      exact other back rfl here.symm

theorem not_mem_flatMap_quoteReference (cs : List Char) : '"' ∉ cs.flatMap quoteReference := by
  intro member
  obtain ⟨c, -, inside⟩ := List.mem_flatMap.mp member
  by_cases quote : c = '"'
  · rw [quote, quoteReference_quote] at inside
    exact absurd inside (by decide)
  · rw [quoteReference_of_ne quote] at inside
    exact quote (List.mem_singleton.mp inside).symm

/-! ## Scanning -/

/-- An attribute with its value between double quotes. -/
def assigned (name value : String) : String := name ++ "=\"" ++ value ++ "\""

/-- The value of the attribute at the start of a text, up to the next double quote, and what follows. -/
def scan? (name : String) (cs : List Char) : Option (List Char × List Char) :=
  (after? (name ++ "=\"").toList cs).bind (cut? ['"'])

/-- The scan ends where the attribute does, whatever follows. -/
def ScansExactly (name value : String) : Prop :=
  ∀ rest, scan? name ((assigned name value).toList ++ rest) = some (value.toList, rest)

theorem scan?_assigned (name value : String) (rest : List Char) :
    scan? name ((assigned name value).toList ++ rest) = cut? ['"'] (value.toList ++ '"' :: rest) := by
  have split : (assigned name value).toList ++ rest =
      (name ++ "=\"").toList ++ (value.toList ++ '"' :: rest) := by simp [assigned]
  rw [scan?, split, after?_append]
  rfl

theorem scansExactly_iff {name value : String} : ScansExactly name value ↔ '"' ∉ value.toList := by
  constructor
  · intro exactly member
    have found := exactly []
    obtain ⟨front, back, split, first⟩ := List.eq_append_cons_of_mem member
    rw [scan?_assigned, split, List.append_assoc, List.cons_append, cut?_singleton_append first] at found
    have early := congrArg Prod.snd (Option.some.inj found)
    exact absurd early (by simp)
  · intro free rest
    rw [scan?_assigned, cut?_singleton_append free]

/-! ## Contents of string literals -/

theorem decoded_append_of_not_mem {front : List Char} (free : '&' ∉ front) (back : List Char) :
    decoded (front ++ back) = front ++ decoded back := by
  induction front with
  | nil => rfl
  | cons c front ih =>
    have other : c ≠ '&' := fun same => free (by simp [same])
    rw [List.cons_append, decoded_cons_of_ne other, ih fun member => free (by simp [member]), List.cons_append]

/-- Only an ampersand has the code unit of an ampersand. -/
theorem eq_ampersand_of_mem_charUnits {c : Char} (member : 38 ∈ charUnits c) : c = '&' := by
  rw [charUnits, codeUnits] at member
  split at member
  · exact Char.toNat_inj.mp (List.mem_singleton.mp member).symm
  · simp at member
    omega

theorem not_mem_textUnits {cs : List Char} (free : '&' ∉ cs) : 38 ∉ textUnits cs := by
  intro member
  obtain ⟨c, inside, unit⟩ := List.mem_flatMap.mp member
  exact free (eq_ampersand_of_mem_charUnits unit ▸ inside)

theorem length_le_textUnits (cs : List Char) : cs.length ≤ (textUnits cs).length := by
  induction cs with
  | nil => exact Nat.le_refl 0
  | cons c cs ih =>
    have here : 1 ≤ (charUnits c).length := by
      rw [charUnits, codeUnits]
      split <;> simp
    rw [textUnits, List.flatMap_cons, List.length_append, List.length_cons]
    rw [textUnits] at ih
    omega

theorem letterUnits?_length {next : Option Char} {c : Char} {us : List Nat} (read : letterUnits? next c = some us) :
    us.length ≤ (charUnits c).length := by
  have bound : 1 ≤ (charUnits c).length := by simpa [textUnits] using length_le_textUnits [c]
  rw [letterUnits?] at read
  split at read
  · cases read
    exact Nat.zero_le _
  · split at read
    · split at read
      · cases read
        exact bound
      · cases read
    · cases read
      cases letterEscapes.lookup c with
      | none => exact Nat.le_refl _
      | some unit => exact bound

theorem escapeUnits?_length {next : Option Char} {e : List Char} {us : List Nat}
    (read : escapeUnits? next e = some us) : us.length ≤ (textUnits e).length := by
  have bound := length_le_textUnits e
  match e with
  | [] => cases read
  | [c] => simpa [textUnits] using letterUnits?_length read
  | c :: d :: tail =>
    have two : 2 ≤ (textUnits (c :: d :: tail)).length := Nat.le_trans (by simp) bound
    have short : us.length ≤ 2 := by
      rw [escapeUnits?] at read
      · split at read
        · dsimp only at read
          split at read
          · cases read
            rw [codeUnits]
            split <;> simp
          · cases read
        · split at read
          · cases read
            simp
          · split at read <;> cases read
            simp
      · exact fun nothing => List.cons_ne_nil _ _ nothing
    exact Nat.le_trans short two

/-- An escape denotes no more than its text without the backslash would, and an ampersand stands in it only
if it is all there is. -/
theorem escape?_eq_some {cs rest : List Char} {us : List Nat} (read : escape? cs = some (us, rest)) :
    ∃ e, cs = e ++ rest ∧ us.length ≤ (textUnits e).length ∧ ('&' ∉ e ∨ us = [38]) := by
  rw [escape?] at read
  split at read
  · cases read
  · rename_i n extent
    obtain ⟨us', units, same⟩ := Option.map_eq_some_iff.mp read
    obtain ⟨rfl, rfl⟩ := Prod.mk.inj same
    refine ⟨cs.take n, (List.take_append_drop n cs).symm, escapeUnits?_length units, ?_⟩
    obtain ⟨c, front, taken, shape⟩ := escapeLength_eq_some extent
    rw [taken] at units ⊢
    by_cases alone : c = '&'
    · right
      subst alone
      cases front with
      | nil => exact (Option.some.inj units).symm
      | cons d front => cases units
    · left
      have free : '&' ∉ front := by
        rcases shape with pair | ⟨tail, -⟩
        · rw [(List.cons.inj pair).2]
          decide
        · intro member
          exact absurd (tail _ member) (by decide)
      simpa [free] using Ne.symm alone

theorem append_eq_append_of_le {α : Type} {as bs cs ds : List α} (same : as ++ bs = cs ++ ds)
    (short : cs.length ≤ as.length) : ds = as.drop cs.length ++ bs := by
  have dropped := congrArg (List.drop cs.length) same
  rw [List.drop_left, List.drop_append_of_le_length short] at dropped
  exact dropped.symm

/-- The contents of a string literal read back as a value that runs ahead of what the literal denotes by
`pending`, which holds no ampersand: then nothing is ahead, and there is no escape and no reference. -/
theorem pending_eq_nil {q : Char} (string : q ≠ '`') {cs : List Char} {v pending : List Nat}
    (value : units? q cs = some v) (free : 38 ∉ pending) (same : pending ++ textUnits (decoded cs) = v) :
    pending = [] ∧ '\\' ∉ cs ∧ ¬ reference <:+: cs := by
  fun_induction units? q cs generalizing v pending with
  | case1 =>
    cases value
    exact ⟨(List.append_eq_nil_iff.mp same).1, by simp, by decide⟩
  | case2 => cases value
  | case3 c rest us rest' read ih =>
    obtain ⟨v', inside, rfl⟩ := Option.map_eq_some_iff.mp value
    by_cases escapes : c = '\\'
    · subst escapes
      exfalso
      have apart : '\\' ≠ q := by
        rintro rfl
        rw [item?, if_pos rfl] at read
        cases read
      rw [item?, if_neg apart, if_pos rfl] at read
      rw [decoded_cons_of_ne (by decide)] at same
      obtain ⟨e, rfl, short, ordinary | ampersand⟩ := escape?_eq_some read
      · rw [decoded_append_of_not_mem ordinary] at same
        have split : (pending ++ 92 :: textUnits e) ++ textUnits (decoded rest') = us ++ v' := by
          rw [← same]
          simp [textUnits, charUnits, codeUnits]
        have long : us.length < (pending ++ 92 :: textUnits e).length := by
          simp only [List.length_append, List.length_cons]
          omega
        have free' : 38 ∉ (pending ++ 92 :: textUnits e).drop us.length := by
          intro member
          have inside := List.mem_of_mem_drop member
          simp [free, not_mem_textUnits ordinary] at inside
        have ahead := (ih inside free' (append_eq_append_of_le split long.le).symm).1
        rw [List.drop_eq_nil_iff] at ahead
        omega
      · -- what the literal denotes goes on with an ampersand, but what is ahead does not
        subst ampersand
        cases pending with
        | nil => cases (List.cons.inj same).1
        | cons u pending => exact free (by simp [(List.cons.inj same).1])
    · have inside' : c ≠ q := by
        rintro rfl
        rw [item?, if_pos rfl] at read
        cases read
      rw [item?, if_neg inside', if_neg escapes, plain?, if_neg string] at read
      split at read
      · cases read
      · obtain ⟨rfl, rfl⟩ := Prod.mk.inj (Option.some.inj read)
        have whole : ¬ reference <+: c :: rest → ('\\' ∉ rest ∧ ¬ reference <:+: rest) →
            '\\' ∉ c :: rest ∧ ¬ reference <:+: c :: rest := by
          rintro start ⟨plain, later⟩
          refine ⟨by simpa [plain] using Ne.symm escapes, fun holds => ?_⟩
          exact (List.infix_cons_iff.mp holds).elim start later
        by_cases ampersand : c = '&'
        · subst ampersand
          cases pending with
          | cons u pending => exact absurd (List.cons.inj same).1 fun e => free (by simp [e])
          | nil =>
            by_cases start : reference <+: '&' :: rest
            · obtain ⟨back, split⟩ := start
              rw [← split, decoded_reference] at same
              cases (List.cons.inj same).1
            · rw [decoded_cons start] at same
              exact ⟨rfl, whole start (ih inside (by simp) (List.cons.inj same).2).2⟩
        · rw [decoded_cons_of_ne ampersand] at same
          have split : (pending ++ charUnits c) ++ textUnits (decoded rest) = charUnits c ++ v' := by
            rw [← same, List.append_assoc]
            rfl
          have free' : 38 ∉ (pending ++ charUnits c).drop (charUnits c).length := by
            intro member
            rcases List.mem_append.mp (List.mem_of_mem_drop member) with old | new
            · exact free old
            · exact ampersand (eq_ampersand_of_mem_charUnits new)
          obtain ⟨ahead, behind⟩ := ih inside free' (append_eq_append_of_le split (by simp)).symm
          rw [List.drop_eq_nil_iff, List.length_append] at ahead
          refine ⟨List.length_eq_zero_iff.mp (by omega), whole (fun start => ?_) behind⟩
          exact ampersand (List.cons_prefix_cons.mp start).1.symm

theorem units?_of_plain {q : Char} (string : q ≠ '`') {cs : List Char} {v : List Nat}
    (value : units? q cs = some v) (plain : '\\' ∉ cs) : v = textUnits cs := by
  fun_induction units? q cs generalizing v with
  | case1 => exact (Option.some.inj value).symm
  | case2 => cases value
  | case3 c rest us rest' read ih =>
    obtain ⟨v', inside, rfl⟩ := Option.map_eq_some_iff.mp value
    have ordinary : c ≠ '\\' := fun same => plain (by simp [same])
    rw [item?, if_neg ordinary] at read
    split at read
    · cases read
    · rw [plain?, if_neg string] at read
      split at read
      · cases read
      · obtain ⟨rfl, rfl⟩ := Prod.mk.inj (Option.some.inj read)
        rw [ih inside fun member => plain (by simp [member])]
        rfl

/-- The contents of a string literal read back as what it denotes exactly if there is no escape and no
reference in them. -/
theorem textUnits_decoded_iff {q : Char} (string : q ≠ '`') {cs : List Char} {v : List Nat}
    (value : units? q cs = some v) :
    textUnits (decoded cs) = v ↔ '\\' ∉ cs ∧ ¬ reference <:+: cs := by
  constructor
  · intro same
    exact (pending_eq_nil string value (List.not_mem_nil) same).2
  · rintro ⟨plain, free⟩
    rw [decoded_eq_self_iff.mpr free, units?_of_plain string value plain]

end Recast.Quoted
