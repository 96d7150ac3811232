import Mathlib.Data.List.Forall2
import Recast.Generate.Layout
import Recast.Proofs.Normalize.Token
import Recast.Proofs.Outcome

/-!
# Laying out markup with wrapped primitives

Layout treats lines with dynamic tags and the same lines with native tags alike: both have the same
blanks at their ends, and there are as many of them.
-/

set_option autoImplicit false

namespace Recast.Normalize

open Recast.Text Recast.Repair Recast.Generate

variable {target : Target}

/-! ## Lines -/

/-- A line with dynamic tags and the same line with native tags, with the primitives that are open in
front of it and behind it. -/
def Line (target : Target) (s : List Primitive) (l r : String) (s' : List Primitive) : Prop :=
  ∃ ts, Reads s ts s' ∧ l.toList = spell target .dynamic ts ∧ r.toList = spell target .native ts

theorem Line.same (s : List Primitive) (text : String) : Line target s text text s :=
  ⟨text.toList.map .char, .chars s _, (spell_chars _ _ _).symm, (spell_chars _ _ _).symm⟩

theorem Line.append {s s' s'' : List Primitive} {l r l' r' : String} (h : Line target s l r s')
    (h' : Line target s' l' r' s'') : Line target s (l ++ l') (r ++ r') s'' := by
  obtain ⟨ts, reads, dynamic, native⟩ := h
  obtain ⟨us, reads', dynamic', native'⟩ := h'
  refine ⟨ts ++ us, reads.append reads', ?_, ?_⟩
  · rw [String.toList_append, dynamic, dynamic', spell_append]
  · rw [String.toList_append, native, native', spell_append]

theorem Line.strip {s s' : List Primitive} {l r : String} (h : Line target s l r s') :
    Line target s (strip l) (strip r) s' := by
  obtain ⟨ts, reads, dynamic, native⟩ := h
  obtain ⟨us, reads', trimmed⟩ := stripChars_spell reads
  refine ⟨us, reads', ?_, ?_⟩
  · rw [Text.strip, String.toList_ofList, dynamic, trimmed]
  · rw [Text.strip, String.toList_ofList, native, trimmed]

inductive Lines (target : Target) :
    List Primitive → List String → List String → List Primitive → Prop
  | nil (s : List Primitive) : Lines target s [] [] s
  | cons {s s' s'' : List Primitive} {l r : String} {ls rs : List String} :
      Line target s l r s' → Lines target s' ls rs s'' → Lines target s (l :: ls) (r :: rs) s''

theorem Lines.append {s s' s'' : List Primitive} {ls rs ls' rs' : List String}
    (h : Lines target s ls rs s') (h' : Lines target s' ls' rs' s'') :
    Lines target s (ls ++ ls') (rs ++ rs') s'' := by
  induction h with
  | nil => exact h'
  | cons line _ ih => exact .cons line (ih h')

theorem Lines.singleton {s s' : List Primitive} {l r : String} (h : Line target s l r s') :
    Lines target s [l] [r] s' :=
  .cons h (.nil s')

theorem Lines.same (s : List Primitive) (ls : List String) : Lines target s ls ls s := by
  induction ls with
  | nil => exact .nil s
  | cons l ls ih => exact .cons (.same s l) ih

theorem Lines.join {s s' : List Primitive} {ls rs : List String} (h : Lines target s ls rs s')
    (sep : String) : Line target s (join sep ls) (join sep rs) s' := by
  induction h with
  | nil s => exact .same s ""
  | @cons s s' s'' l r ls rs line more ih =>
    cases more with
    | nil => exact line
    | cons line' more => exact (line.append (.same _ sep)).append ih

/-- Lines that leave the open primitives as they are. -/
def Blocks (target : Target) (ls rs : List String) : Prop := ∀ s, Lines target s ls rs s

theorem Blocks.same (ls : List String) : Blocks target ls ls := fun s => .same s ls

theorem Blocks.append {ls rs ls' rs' : List String} (h : Blocks target ls rs)
    (h' : Blocks target ls' rs') : Blocks target (ls ++ ls') (rs ++ rs') :=
  fun s => (h s).append (h' s)

theorem Blocks.isEmpty_eq {ls rs : List String} (h : Blocks target ls rs) : ls.isEmpty = rs.isEmpty := by
  cases h [] <;> rfl

/-- Pieces of content that are the same text or have such lines. -/
inductive Pieces (target : Target) : Piece → Piece → Prop
  | inline (text : String) : Pieces target (.inline text) (.inline text)
  | block {ls rs : List String} : Blocks target ls rs → Pieces target (.block ls) (.block rs)

theorem layoutFrom_blocks (depth : Nat) {ps qs : List Piece} (h : List.Forall₂ (Pieces target) ps qs)
    (run : List String) : Blocks target (layoutFrom depth run ps) (layoutFrom depth run qs) := by
  induction h generalizing run with
  | nil => exact .same _
  | cons here _ ih =>
    cases here with
    | inline text => exact ih _
    | block lines => exact ((Blocks.same _).append lines).append (ih _)

/-- The content of an element, or the line that stands in for it. -/
theorem content_blocks {target : Target} (depth : Nat) (needed : Bool) (line : String)
    {ps qs : List Piece} (related : List.Forall₂ (Pieces target) ps qs) :
    Blocks target (if (layout depth ps).isEmpty && needed then [line] else layout depth ps)
      (if (layout depth qs).isEmpty && needed then [line] else layout depth qs) := by
  have lines : Blocks target (layout depth ps) (layout depth qs) := layoutFrom_blocks depth related []
  rw [lines.isEmpty_eq]
  split
  · exact .same _
  · exact lines

/-! ## Elements -/

theorem elementLines_same (depth : Nat) (opening tag : String) (closesItself isInline : Bool)
    {ls rs : List String} (content : Blocks target ls rs) :
    Blocks target (elementLines depth opening tag closesItself isInline ls)
      (elementLines depth opening tag closesItself isInline rs) := by
  intro s
  have lines := content s
  cases lines with
  | nil => exact .same s _
  | @cons _ s' _ l r ls rs line more =>
    cases more with
    | nil =>
      cases isInline with
      | true => exact .singleton (((Line.same s _).append line.strip).append (.same _ _))
      | false => exact .cons (.same s _) (.cons line (.cons (.same _ _) (.nil _)))
    | cons line' more =>
      exact ((Lines.same s _).append (.cons line (.cons line' more))).append (.same s _)

/-- The opening tags of a primitive, dynamic and native, without their final brackets. -/
def Openings (target : Target) (p : Primitive) (l r : String) : Prop :=
  ∃ text, Attributes text ∧ l.toList = (Token.opens p).text target .dynamic ++ text ∧
    r.toList = (Token.opens p).text target .native ++ text

section Primitive

variable {p : Primitive} {l r tag : String} (openings : Openings target p l r)
  (dynamic : tag.toList = dynamicTag target)

include openings

theorem Openings.line (plain : p.isVoid = false) (s : List Primitive) :
    Line target s (l ++ ">") (r ++ ">") (p :: s) := by
  obtain ⟨text, attributes, left, right⟩ := openings
  refine ⟨.opens p :: (text.map .char ++ .char '>' :: []), .opened plain attributes (.nil _), ?_, ?_⟩
  · simp [left, Token.text]
  · simp [right, Token.text]

include dynamic

omit openings in
theorem closing_line (plain : p.isVoid = false) (s : List Primitive) :
    Line target (p :: s) ("</" ++ tag ++ ">") ("</" ++ p.tag ++ ">") s := by
  refine ⟨[.closes p], .closed plain (.nil s), ?_, ?_⟩
  · simp [Token.text, closingMarker_eq, dynamic]
  · simp [Token.text]

theorem elementLines_primitive (plain : p.isVoid = false) (depth : Nat) (isInline : Bool)
    {ls rs : List String} (content : Blocks target ls rs) :
    Blocks target (elementLines depth l tag false isInline ls)
      (elementLines depth r p.tag false isInline rs) := by
  intro s
  have padded : Line target s (pad depth ++ l ++ ">") (pad depth ++ r ++ ">") (p :: s) := by
    have line := (Line.same s (pad depth)).append (openings.line plain s)
    rwa [← String.append_assoc, ← String.append_assoc] at line
  have closing := closing_line dynamic plain s
  have closed := (Line.same (p :: s) (pad depth)).append closing
  have lines := content (p :: s)
  cases lines with
  | nil =>
    have whole := padded.append closing
    refine .singleton ?_
    simpa only [Bool.false_eq_true, if_false, String.append_assoc] using whole
  | @cons _ s' _ l' r' ls rs line more =>
    cases more with
    | nil =>
      cases isInline with
      | true => exact .singleton ((padded.append line.strip).append closing)
      | false => exact .cons padded (.cons line (.cons closed (.nil _)))
    | cons line' more =>
      exact ((Lines.singleton padded).append (.cons line (.cons line' more))).append (.singleton closed)

theorem elementLines_void (isVoid : p.isVoid = true) (depth : Nat) (isInline isInline' : Bool) :
    Blocks target (elementLines depth l tag false isInline [])
      (elementLines depth r p.tag true isInline' []) := by
  intro s
  obtain ⟨text, attributes, left, right⟩ := openings
  refine .singleton ⟨(pad depth).toList.map .char ++ Token.opens p :: (text.map .char ++ Token.finishes p :: []),
    (Reads.chars s _).append (.void isVoid attributes (.nil s)), ?_, ?_⟩
  · simp [left, Token.text, closingMarker_eq, dynamic]
  · simp [right, Token.text]

end Primitive

end Recast.Normalize
