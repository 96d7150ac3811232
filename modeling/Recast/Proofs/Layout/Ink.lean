import Recast.Generate.Layout
import Recast.Generate.Plan
import Recast.Proofs.Markup.Sound
import Recast.Proofs.Text.Search

/-!
# What layout leaves alone

The ink of a text is what is left of it without blanks. Layout only moves blanks: the lines of an
element, of a run of text and of a whole forest have the ink of the pieces they were made from, in
their order.
-/

set_option autoImplicit false

namespace Recast.Layout

open Recast.Text Recast.Generate Recast.Markup

/-- The characters of a text other than blanks. -/
def ink (text : String) : List Char := text.toList.filter (!isBlank ·)

def lineInk (lines : List String) : List Char := lines.flatMap ink

/-! ## Text -/

@[simp]
theorem ink_append (s t : String) : ink (s ++ t) = ink s ++ ink t := by
  rw [ink, String.toList_append, List.filter_append]
  rfl

theorem filter_dropWhile (p : Char → Bool) (cs : List Char) :
    (cs.dropWhile p).filter (!p ·) = cs.filter (!p ·) := by
  induction cs with
  | nil => rfl
  | cons c cs ih =>
    by_cases blank : p c = true
    · rw [List.dropWhile_cons_of_pos blank, ih, List.filter_cons_of_neg (by simp [blank])]
    · rw [List.dropWhile_cons_of_neg blank]

theorem filter_dropEndWhile (p : Char → Bool) (cs : List Char) :
    (dropEndWhile p cs).filter (!p ·) = cs.filter (!p ·) := by
  rw [dropEndWhile, List.filter_reverse, filter_dropWhile, List.filter_reverse, List.reverse_reverse]

theorem ink_strip (text : String) : ink (strip text) = ink text := by
  rw [ink, strip, String.toList_ofList, stripChars, trimWhile, filter_dropEndWhile, filter_dropWhile]
  rfl

theorem ink_of_blank {text : String} (blank : text.toList.all isBlank = true) : ink text = [] := by
  rw [ink, List.filter_eq_nil_iff]
  intro c member
  simp [List.all_eq_true.mp blank c member]

theorem pad_blank (depth : Nat) : (pad depth).toList.all isBlank = true := by
  have space : isBlank ' ' = true := by decide
  rw [pad, String.toList_ofList, List.all_eq_true]
  intro c member
  rw [List.eq_of_mem_replicate member, space]

theorem ink_pad (depth : Nat) : ink (pad depth) = [] := ink_of_blank (pad_blank depth)

theorem ink_concat (texts : List String) : ink (String.join texts) = lineInk texts := by
  rw [ink, String.toList_join, List.filter_flatMap]
  rfl

@[simp]
theorem lineInk_nil : lineInk [] = [] := rfl

@[simp]
theorem lineInk_cons (line : String) (lines : List String) :
    lineInk (line :: lines) = ink line ++ lineInk lines :=
  List.flatMap_cons

@[simp]
theorem lineInk_append (lines more : List String) :
    lineInk (lines ++ more) = lineInk lines ++ lineInk more :=
  List.flatMap_append

theorem ink_join {sep : String} (blank : ink sep = []) (lines : List String) :
    ink (join sep lines) = lineInk lines := by
  induction lines with
  | nil => rfl
  | cons line lines ih =>
    cases lines with
    | nil => simp [join]
    | cons next rest =>
      have step : join sep (line :: next :: rest) = line ++ sep ++ join sep (next :: rest) := rfl
      rw [step, ink_append, ink_append, blank, ih, List.append_nil, lineInk_cons line]

theorem ink_lines (lines : List String) : ink (join "\n" lines) = lineInk lines :=
  ink_join (ink_of_blank (by decide)) lines

theorem ink_infix_lineInk {line : String} {lines : List String} (member : line ∈ lines) :
    ink line <:+: lineInk lines := by
  obtain ⟨front, back, rfl⟩ := List.append_of_mem member
  exact ⟨lineInk front, lineInk back, by simp⟩

/-! ## Content -/

def pieceInk : Piece → List Char
  | .inline text => ink text
  | .block lines => lineInk lines

theorem runLine_ink (depth : Nat) (run : List String) : lineInk (runLine depth run) = lineInk run := by
  have whole : ink (strip (String.join run)) = lineInk run := by rw [ink_strip, ink_concat]
  rw [runLine]
  by_cases empty : strip (String.join run) = ""
  · rw [empty] at whole
    rw [if_pos empty, ← whole]
    rfl
  · rw [if_neg empty, lineInk_cons, ink_append, ink_pad, List.nil_append, whole, lineInk_nil,
      List.append_nil]

/-- The run that is still open goes in front of the pieces that follow it. -/
theorem layoutFrom_ink (depth : Nat) (run : List String) (pieces : List Piece) :
    lineInk (layoutFrom depth run pieces) = lineInk run ++ pieces.flatMap pieceInk := by
  induction pieces generalizing run with
  | nil => rw [layoutFrom, runLine_ink, List.flatMap_nil, List.append_nil]
  | cons piece pieces ih =>
    cases piece with
    | inline text => simp [layoutFrom, ih, pieceInk]
    | block lines => simp [layoutFrom, ih, pieceInk, runLine_ink]

theorem layout_ink (depth : Nat) (pieces : List Piece) :
    lineInk (layout depth pieces) = pieces.flatMap pieceInk :=
  layoutFrom_ink depth [] pieces

/-! ## Elements -/

/-- An element on one line, around what is written inside it. -/
def flatElement (opening tag inside : String) (closesItself : Bool) : String :=
  if closesItself then opening ++ " />" else opening ++ ">" ++ inside ++ "</" ++ tag ++ ">"

theorem elementLines_ink (depth : Nat) (opening tag : String) (isInline : Bool) (content : List String)
    (inside : String) (same : lineInk content = ink inside) :
    lineInk (elementLines depth opening tag false isInline content) =
      ink (flatElement opening tag inside false) := by
  cases content with
  | nil =>
    rw [lineInk_nil] at same
    simp [elementLines, flatElement, ink_pad, ← same]
  | cons line lines =>
    cases lines with
    | nil =>
      rw [lineInk_cons, lineInk_nil, List.append_nil] at same
      cases isInline <;> simp [elementLines, flatElement, ink_pad, ink_strip, same]
    | cons next rest =>
      rw [lineInk_cons, lineInk_cons] at same
      simp [elementLines, flatElement, ink_pad, ← same]

theorem elementLines_closed_ink (depth : Nat) (opening tag inside : String) (isInline : Bool) :
    lineInk (elementLines depth opening tag true isInline []) =
      ink (flatElement opening tag inside true) := by
  simp [elementLines, flatElement, ink_pad]

/-- The content of an element, or the line that stands in for it where it has none. -/
theorem content_ink {depth : Nat} {pieces : List Piece} {placeholder inside : String} {needed : Bool}
    (childless : needed = true → pieces = []) (same : pieces.flatMap pieceInk = ink inside) :
    lineInk (if (layout depth pieces).isEmpty && needed then [pad depth ++ placeholder]
        else layout depth pieces) =
      ink (if needed then placeholder else inside) := by
  cases needed with
  | false => simp [layout_ink, same]
  | true =>
    rw [childless rfl, layout_nil]
    simp [ink_pad]

/-! ## Renderings -/

/-- A rendering that succeeds with the ink of a text. -/
def Renders (rendering : Except Report (List String)) (text : String) : Prop :=
  ∃ lines, rendering = .ok lines ∧ lineInk lines = ink text

/-- The same for the pieces of some content. -/
def RendersPieces (rendering : Except Report (List Piece)) (text : String) : Prop :=
  ∃ pieces, rendering = .ok pieces ∧ pieces.flatMap pieceInk = ink text

theorem needsPlaceholder_childless {h : Head} {children : List Node}
    (needed : needsPlaceholder h children = true) : children = [] := by
  rw [needsPlaceholder, Bool.and_eq_true, Bool.and_eq_true] at needed
  exact List.isEmpty_iff.mp needed.1.2

/-- A sound element that closes itself has nothing to show. -/
theorem closesItself_childless {h : Head} {children : List Node} (closed : closesItself h children = true)
    (sound : h.isVoid = true → children = []) : children = [] ∧ needsPlaceholder h children = false := by
  rw [closesItself, Bool.or_eq_true, Bool.and_eq_true] at closed
  rcases closed with isVoid | ⟨slotless, empty⟩
  · exact ⟨sound isVoid, by rw [needsPlaceholder, isVoid]; rfl⟩
  · refine ⟨List.isEmpty_iff.mp empty, ?_⟩
    rw [needsPlaceholder, slotless, Bool.not_true, Bool.and_false]
    rfl

end Recast.Layout
