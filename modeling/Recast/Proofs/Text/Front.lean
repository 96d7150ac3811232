import Recast.Proofs.Text.Substitution

/-!
# The front of a text

What a change makes of the front of a text, whatever follows. Rules are followed line by line: behind a line feed a
rule goes on as at the start of a text of its own, so what it makes of each line makes up what it makes of the front.
-/

set_option autoImplicit false

namespace Recast.Text

variable {α : Type}

/-- A change takes the front of a text to another front. -/
def Leads (f : List Char → List Char) (front new : List Char) : Prop := ∀ rest, ∃ rest', f (front ++ rest) = new ++ rest'

theorem Leads.refl (front : List Char) : Leads (fun cs => cs) front front := fun rest => ⟨rest, rfl⟩

theorem Leads.comp {f g : List Char → List Char} {front new last : List Char} (first : Leads f front new)
    (second : Leads g new last) : Leads (fun cs => g (f cs)) front last := by
  intro rest
  obtain ⟨between, here⟩ := first rest
  obtain ⟨rest', there⟩ := second between
  exact ⟨rest', (congrArg g here).trans there⟩

/-- A rule takes a text that starts on a line of its own to another, and goes on behind it on the next line. -/
def Takes (rule : Rule (List Char)) (text new : List Char) : Prop :=
  ∀ previous rest, atLineStart previous = true →
    substituteBehind rule previous (text ++ rest) = new ++ substituteBehind rule (some '\n') rest

section Takes

variable {rule : Rule (List Char)} {text new back newBack : List Char}

theorem Takes.append (front : Takes rule text new) (behind : Takes rule back newBack) :
    Takes rule (text ++ back) (new ++ newBack) := by
  intro previous rest start
  rw [List.append_assoc, front previous _ start, behind (some '\n') rest rfl, List.append_assoc]

theorem Takes.flatMap {β : Type} {old : β → List Char} {renewed : β → List Char} {lines : List β}
    (each : ∀ line ∈ lines, Takes rule (old line) (renewed line)) (front : Takes rule text new) :
    Takes rule (text ++ lines.flatMap old) (new ++ lines.flatMap renewed) := by
  induction lines generalizing text new with
  | nil => simpa using front
  | cons line lines ih =>
    have here := front.append (each line List.mem_cons_self)
    have later := ih (fun next member => each next (.tail _ member)) here
    rwa [List.append_assoc, List.append_assoc] at later

theorem Takes.leads (takes : Takes rule text new) : Leads (substitute rule) text new := fun rest =>
  ⟨_, takes none rest rfl⟩

theorem takes_of_silent {line : List Char}
    (silent : ∀ previous rest, Silent rule previous (line ++ ['\n']) rest) :
    Takes rule (line ++ ['\n']) (line ++ ['\n']) := by
  intro previous rest _
  rw [substituteBehind_of_silent (silent previous rest), lastOr_concat]

end Takes

/-! ## Rules that start lines -/

/-- A rule that finds something at the start of a line only. -/
def StartsLines (rule : Rule α) : Prop := ∀ previous cs, atLineStart previous = false → rule previous cs = none

theorem StartsLines.silent {rule : Rule α} (starts : StartsLines rule) {line : List Char} (single : '\n' ∉ line)
    {previous : Option Char} (inside : atLineStart previous = false) (rest : List Char) :
    Silent rule previous (line ++ ['\n']) rest := by
  induction line generalizing previous with
  | nil => exact ⟨starts _ _ inside, trivial⟩
  | cons c line ih =>
    have other : (c == '\n') = false := by simpa using fun same : c = '\n' => single (by simp [same])
    exact ⟨starts _ _ inside, ih (fun member => single (.tail _ member)) other⟩

/-- Such a rule leaves a line alone at whose start it finds nothing. -/
theorem StartsLines.takes {rule : Rule (List Char)} (starts : StartsLines rule) {line : List Char}
    (single : '\n' ∉ line) (first : ∀ previous rest, rule previous (line ++ '\n' :: rest) = none) :
    Takes rule (line ++ ['\n']) (line ++ ['\n']) := by
  refine takes_of_silent fun previous rest => ?_
  cases line with
  | nil => exact ⟨first previous rest, trivial⟩
  | cons c line =>
    have other : (c == '\n') = false := by simpa using fun same : c = '\n' => single (by simp [same])
    have inside : atLineStart (some c) = false := other
    have here := first previous rest
    rw [List.append_cons] at here
    exact ⟨here, starts.silent (fun member => single (.tail _ member)) inside rest⟩

/-! ## Texts that do not occur -/

theorem occurs_eq_false_of_not_mem {c : Char} {p text : List Char} (inside : c ∈ p) (outside : c ∉ text) :
    occurs p text = false := by
  rw [← Bool.not_eq_true, occurs_iff]
  exact fun part => outside (part.subset inside)

/-- What lacks a character occurs on one side of it or on the other. -/
theorem occurs_append_cons {c : Char} {p : List Char} (outside : c ∉ p) (nonempty : p ≠ []) (front back : List Char) :
    occurs p (front ++ c :: back) = (occurs p front || occurs p back) := by
  have stop : ∀ d ∈ (c :: back).head?, d ∉ p := by simpa using outside
  induction front with
  | nil =>
    obtain ⟨d, p, rfl⟩ := List.exists_cons_of_ne_nil nonempty
    have other : d ≠ c := fun same => outside (by simp [same])
    simp [occurs, cut?, after?_eq_none_of_head other]
  | cons d front ih =>
    have here : after? p (d :: (front ++ c :: back)) = (after? p (d :: front)).map (· ++ c :: back) :=
      after?_append_of_head stop (d :: front)
    rw [List.cons_append, occurs, cut?, here, occurs.eq_1 p (d :: front), cut?]
    cases after? p (d :: front) with
    | some rest => rfl
    | none => simpa [occurs] using ih

/-- A rule that needs a certain text is silent on a text without it that ends with a character of another kind. -/
theorem silent_of_occurs {rule : Rule α} {p : List Char}
    (needs : ∀ previous cs, after? p cs = none → rule previous cs = none) {text : List Char} {last : Char}
    (outside : last ∉ p) (absent : occurs p (text ++ [last]) = false) (previous : Option Char) (rest : List Char) :
    Silent rule previous (text ++ [last]) rest := by
  have stop : ∀ back : List Char, ∀ c ∈ (last :: back).head?, c ∉ p := by simpa using outside
  have nowhere : ∀ front, after? p (front ++ [last]) = none → after? p (front ++ last :: rest) = none := by
    intro front none
    rw [after?_append_of_head (stop []), Option.map_eq_none_iff] at none
    rw [after?_append_of_head (stop rest), none, Option.map_none]
  induction text generalizing previous with
  | nil => exact ⟨needs _ _ (nowhere [] (occurs_cons_eq_false absent).1), trivial⟩
  | cons c text ih =>
    obtain ⟨here, later⟩ := occurs_cons_eq_false absent
    have first : rule previous (c :: (text ++ last :: rest)) = none := needs _ _ (nowhere (c :: text) here)
    rw [List.append_cons] at first
    exact ⟨first, ih later _⟩

end Recast.Text
