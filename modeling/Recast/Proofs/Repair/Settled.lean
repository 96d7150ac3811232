import Recast.Proofs.Repair.Progress

/-!
# When a second repair changes nothing

`Settled` says what repaired markup should look like: no dynamic tag is left that the table knows,
and outside of scripts there is no closing tag of a void element, no class attribute under its old
name, no native element that should not close itself, and no empty element that should have content.

A repair leaves exactly the settled texts alone. It does not always deliver one: what a rule writes
is not looked at again in the same pass, and it may hold something to repair, such as the value of an
attribute that is itself markup. So repairing twice is repairing once for just those texts whose
repair is settled.
-/

set_option autoImplicit false

namespace Recast.Repair

open Recast.Text

/-! ## Outside of scripts -/

/-- Markup without anything to fix. -/
structure Tidy (target : Target) (runes : Bool) (text : List Char) : Prop where
  noVoidClosing : recognizes voidClosing text = false
  selfClosed : target = .svelte → Keeps selfClosing text
  filled : Keeps (emptyElement (placeholder target runes)) text
  noClassName : recognizes classNameAttribute text = false

theorem keeps_voidClosing_iff (text : List Char) :
    Keeps voidClosing text ↔ recognizes voidClosing text = false := by
  refine voidClosing_advances.keeps_iff (fun p raw rest nonempty found => ?_) text
  exact nonempty (voidClosing_eq_some found).1

theorem keeps_classNameAttribute_iff (text : List Char) :
    Keeps classNameAttribute text ↔ recognizes classNameAttribute text = false := by
  refine classNameAttribute_advances.keeps_iff (fun p raw rest _ found => ?_) text
  obtain ⟨rfl, shape⟩ := classNameAttribute_eq_some found
  exact absurd (List.append_cancel_right shape) (by decide)

theorem tidy_iff (target : Target) (runes : Bool) (text : List Char) :
    Tidy target runes text ↔
      ((Keeps voidClosing text ∧ (target = .svelte → Keeps selfClosing text)) ∧
        Keeps (emptyElement (placeholder target runes)) text) ∧ Keeps classNameAttribute text := by
  rw [keeps_voidClosing_iff, keeps_classNameAttribute_iff]
  exact ⟨fun h => ⟨⟨⟨h.1, h.2⟩, h.3⟩, h.4⟩, fun h => ⟨h.1.1.1, h.1.1.2, h.1.2, h.2⟩⟩

/-- Svelte elements are closed properly, Vue elements are left as they are. -/
theorem selfClosing_settles (target : Target) :
    Settles (fun text => if target = .svelte then substitute selfClosing text else text)
      (fun text => target = .svelte → Keeps selfClosing text) := by
  intro text
  by_cases isSvelte : target = .svelte
  · simpa [isSvelte] using selfClosing_advances.settles text
  · exact .inl ⟨fun e => absurd e isSvelte, if_neg isSvelte⟩

theorem fixMarkup_settles (target : Target) (runes : Bool) :
    Settles (fixMarkup target runes) (Tidy target runes) := by
  intro text
  have rules := ((voidClosing_advances.settles.comp (selfClosing_settles target)).comp
    (emptyElement_advances target runes).settles).comp classNameAttribute_advances.settles
  rw [tidy_iff]
  exact rules text

/-- A change of the text outside of scripts that settles each piece settles the whole. -/
theorem outsideScripts_settles {change : List Char → List Char} {settled : List Char → Prop}
    (h : Settles change settled) :
    Settles (outsideScripts change)
      (fun text => ∀ piece, .plain piece ∈ segments scriptBlock text → settled piece) := by
  intro text
  let changed (piece : Segment (List Char × List Char × List Char)) : List Char :=
    piece.casesOn change fun t _ => t
  have each : ∀ piece ∈ segments scriptBlock text,
      changed piece = piece.text ∨ Progress piece.text (changed piece) := by
    intro piece _
    cases piece with
    | plain t =>
      rcases h t with ⟨_, same⟩ | ⟨_, progress⟩
      · exact .inl same
      · exact .inr progress
    | hit t _ => exact .inl rfl
  have all : (∀ piece ∈ segments scriptBlock text, changed piece = piece.text) ↔
      ∀ piece, .plain piece ∈ segments scriptBlock text → settled piece := by
    constructor
    · intro same piece member
      exact (h.eq_self_iff piece).mp (same _ member)
    · intro isSettled piece member
      cases piece with
      | plain t => exact (h.eq_self_iff t).mpr (isSettled t member)
      | hit t _ => rfl
  have whole := settles_pieces (segments scriptBlock text) Segment.text changed each
  have spelled : (segments scriptBlock text).flatMap changed = outsideScripts change text := by
    rw [outsideScripts]
    congr 1
    funext piece
    cases piece <;> rfl
  rw [all, flatMap_text_segments, spelled] at whole
  exact whole

/-! ## Dynamic tags -/

/-- A tag for which the table has no native one. -/
def IsUnknown (target : Target) (table : Assoc String) : Segment Mark → Prop
  | .hit _ (.opening content) => (readOpening target table content).tag = none
  | _ => True

/-- As long as no tag is substituted, closing tags are left alone too. -/
theorem substituteFrom_unknown (target : Target) (table : Assoc String) {pieces : List (Segment Mark)}
    (unknown : ∀ piece ∈ pieces, IsUnknown target table piece) {stack : List (Option (List Char))}
    (kept : ∀ tag ∈ stack, tag = none) :
    (substituteFrom target table stack pieces).text = pieces.flatMap Segment.text ∧
      (substituteFrom target table stack pieces).replaced = 0 := by
  induction pieces generalizing stack with
  | nil => exact ⟨rfl, rfl⟩
  | cons piece pieces ih =>
    have later : ∀ piece ∈ pieces, IsUnknown target table piece := fun q hq => unknown q (by simp [hq])
    have here := unknown piece (by simp)
    cases piece with
    | plain t =>
      have rest := ih later kept
      simp only [substituteFrom, rest, List.flatMap_cons, Segment.text, and_self]
    | hit raw mark =>
      cases mark with
      | closing =>
        have kept' : ∀ tag ∈ stack.tail, tag = none := fun tag hs => kept tag (List.mem_of_mem_tail hs)
        have rest := ih later kept'
        have raw' : (closeTag raw stack).1 = raw := by
          cases stack with
          | nil => rfl
          | cons tag stack =>
            obtain rfl := kept tag (by simp)
            rfl
        simp only [substituteFrom, rest, raw', List.flatMap_cons, Segment.text, and_self]
      | endless =>
        have rest := ih later kept
        simp only [substituteFrom, rest, List.flatMap_cons, Segment.text, and_self]
      | opening content =>
        have unmapped : (readOpening target table content).tag = none := here
        have kept' : ∀ tag ∈ if (readOpening target table content).closesItself then stack
            else none :: stack, tag = none := by
          intro tag member
          split at member
          · exact kept tag member
          · rcases List.mem_cons.mp member with rfl | member
            · rfl
            · exact kept tag member
        have rest := ih later kept'
        simp only [substituteFrom, unmapped, rest, List.flatMap_cons, Segment.text, and_self]

theorem unknown_of_replaced_eq_zero (target : Target) (table : Assoc String)
    {pieces : List (Segment Mark)} {stack : List (Option (List Char))}
    (none' : (substituteFrom target table stack pieces).replaced = 0) :
    ∀ piece ∈ pieces, IsUnknown target table piece := by
  induction pieces generalizing stack with
  | nil => simp
  | cons piece pieces ih =>
    rw [List.forall_mem_cons]
    cases piece with
    | plain t => exact ⟨trivial, ih none'⟩
    | hit raw mark =>
      cases mark with
      | closing => exact ⟨trivial, ih none'⟩
      | endless => exact ⟨trivial, ih none'⟩
      | opening content =>
        cases found : (readOpening target table content).tag with
        | none =>
          simp only [substituteFrom, found] at none'
          exact ⟨found, ih none'⟩
        | some tag => simp [substituteFrom, found] at none'

/-- No tag is substituted if and only if the table knows none of them, and then the text stays. -/
theorem substituteTags_replaced_eq_zero_iff (target : Target) (table : Assoc String)
    (text : List Char) :
    (substituteTags text target table).replaced = 0 ↔
      ∀ piece ∈ segments (markRule target) text, IsUnknown target table piece :=
  ⟨unknown_of_replaced_eq_zero target table, fun unknown =>
    (substituteFrom_unknown target table unknown (by simp)).2⟩

theorem substituteTags_text_of_unknown {target : Target} {table : Assoc String} {text : List Char}
    (unknown : ∀ piece ∈ segments (markRule target) text, IsUnknown target table piece) :
    (substituteTags text target table).text = text := by
  rw [substituteTags, (substituteFrom_unknown target table unknown (by simp)).1,
    flatMap_text_segments]

/-! ## The whole repair -/

/-- A text with nothing left to repair. -/
structure Settled (target : Target) (table : Assoc String) (runes : Bool) (text : List Char) :
    Prop where
  unknown : ∀ piece ∈ segments (markRule target) text, IsUnknown target table piece
  tidy : ∀ piece, .plain piece ∈ segments scriptBlock text → Tidy target runes piece

/-- A repair leaves exactly the settled texts alone. -/
theorem repairMarkup_eq_self_iff (text : List Char) (target : Target) (table : Assoc String)
    (runes : Bool) :
    (repairMarkup text target table runes).text = text ∧
        (repairMarkup text target table runes).replaced = 0 ↔
      Settled target table runes text := by
  have fixed := (outsideScripts_settles (fixMarkup_settles target runes)).eq_self_iff text
  have tags := substituteTags_replaced_eq_zero_iff target table text
  simp only [repairMarkup]
  constructor
  · rintro ⟨same, none'⟩
    have unknown := tags.mp none'
    rw [substituteTags_text_of_unknown unknown] at same
    exact ⟨unknown, fixed.mp same⟩
  · rintro ⟨unknown, tidy⟩
    rw [substituteTags_text_of_unknown unknown]
    exact ⟨fixed.mpr tidy, tags.mpr unknown⟩

/-- Repairing a repaired text changes nothing if and only if the first repair left nothing to
repair. -/
theorem repairMarkup_idempotent_iff (text : List Char) (target : Target) (table : Assoc String)
    (runes : Bool) :
    let once := repairMarkup text target table runes
    let twice := repairMarkup once.text target table runes
    twice.text = once.text ∧ twice.replaced = 0 ↔ Settled target table runes once.text :=
  repairMarkup_eq_self_iff _ target table runes

-- the frame around an empty element gets its closing tag first, and only the second repair reaches
-- the element inside
example :
    let once := repairMarkup "<iframe srcdoc=\"<div />\" />".toList .svelte
    once.text = "<iframe srcdoc=\"<div />\"></iframe>".toList ∧
      (repairMarkup once.text .svelte).text = "<iframe srcdoc=\"<div></div>\"></iframe>".toList := by
  decide +kernel

end Recast.Repair
