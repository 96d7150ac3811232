import Recast.Proofs.ClassExpr.Adapted
import Recast.Proofs.ClassExpr.Requote

/-!
# Lists of arguments

Handling code goes through a list of arguments one by one: what the list holds, how it is moved and spelled, and
how it is written for an attribute all come from its arguments.
-/

set_option autoImplicit false

namespace Recast.ClassExpr

open Recast.Text

namespace Code

variable {name space : List Char} {enclosed : Bool}

/-! ## What a list holds -/

theorem arguments_append_comma (a b : Code) : (a.append (mark ',' b)).arguments = a.arguments ++ b.arguments := by
  rw [arguments, parts_append_comma, List.map_append, List.filter_append, arguments, arguments]

theorem arguments_blank {c : Char} (blank : isBlank c = true) (e : Code) : (mark c e).arguments = e.arguments := by
  have noComma : c ≠ ',' := by
    rintro rfl
    exact absurd blank (by decide)
  obtain ⟨first, others, shape, -⟩ := e.exists_parts
  have trimmed : (mark c first).trim = first.trim := by rw [trim, trimStart, if_pos blank, trim]
  rw [arguments, parts, if_neg noComma, shape, onFirst, List.map_cons, trimmed, ← List.map_cons, ← shape, arguments]

theorem list_cons_cons (e next : Code) (es : List Code) :
    list (e :: next :: es) = e.append (mark ',' (mark ' ' (list (next :: es)))) := rfl

/-- A list of arguments holds them. -/
theorem arguments_list {es : List Code} (single : ∀ e ∈ es, e.arguments = [e]) : (list es).arguments = es := by
  induction es with
  | nil => rfl
  | cons e es ih =>
    have later := ih fun x member => single x (by simp [member])
    have here := single e (by simp)
    cases es with
    | nil => exact here
    | cons next es =>
      rw [list_cons_cons, arguments_append_comma, arguments_blank (by decide), here, later]
      rfl

theorem append_assoc (a b c : Code) : (a.append b).append c = a.append (b.append c) := by
  induction a with
  | done => rfl
  | word t rest ih => rw [append, append, append, ih]
  | call t gap inside rest _ ih => rw [append, append, append, ih]
  | group b inside rest _ ih => rw [append, append, append, ih]
  | literal q t rest ih => rw [append, append, append, ih]
  | mark c rest ih => rw [append, append, append, ih]

theorem list_concat {es : List Code} (nonempty : es ≠ []) (e : Code) :
    (list es).append (mark ',' (mark ' ' e)) = list (es ++ [e]) := by
  induction es with
  | nil => exact absurd rfl nonempty
  | cons first es ih =>
    cases es with
    | nil => rfl
    | cons next es =>
      rw [list_cons_cons, append_assoc, append, append, ih (by simp)]
      rfl

/-- The class is passed on as a last argument of a list that does not have it. -/
theorem withClass_list {es : List Code} (nonempty : es ≠ []) (single : ∀ e ∈ es, e.arguments = [e]) :
    (list es).withClass = list (es ++ if classWord ∈ es then [] else [classWord]) := by
  rw [withClass, hasClass, arguments_list single]
  by_cases present : classWord ∈ es
  · simp [present]
  · simp [present, list_concat nonempty]

/-! ## Moving and spelling a list -/

theorem moved_append (a b : Code) :
    (a.append b).moved name space enclosed =
      ((a.moved name space enclosed).1.append (b.moved name space enclosed).1,
        (a.moved name space enclosed).2 || (b.moved name space enclosed).2) := by
  have variant (args : Code) (passes : Bool) (x y : Code × Bool) :
      variantCall name args passes enclosed (x.1.append y.1, x.2 || y.2) =
        ((variantCall name args passes enclosed x).1.append y.1,
          (variantCall name args passes enclosed x).2 || y.2) := by
    rw [variantCall, variantCall]
    split
    · split <;> rfl
    · rfl
  have other (t gap : List Char) (within x y : Code × Bool) :
      otherCall t gap within (x.1.append y.1, x.2 || y.2) =
        ((otherCall t gap within x).1.append y.1, (otherCall t gap within x).2 || y.2) := by
    rw [otherCall, otherCall]
    split
    · rfl
    · simp [append, Bool.or_assoc]
  induction a with
  | done => simp [append, moved]
  | word t rest ih => simp [append, moved, ih]
  | call t gap inside rest _ ih =>
    rw [append, moved, moved, ih]
    dsimp only
    split
    · split
      · exact variant _ _ _ _
      · rfl
    · exact other _ _ _ _ _
  | group k inside rest _ ih => simp [append, moved, ih, Bool.or_assoc]
  | literal q t rest ih => simp [append, moved, ih]
  | mark c rest ih => simp [append, moved, ih]

theorem moved_list (es : List Code) :
    (list es).moved name space enclosed =
      (list (es.map fun e => (e.moved name space enclosed).1), es.any fun e => (e.moved name space enclosed).2) := by
  induction es with
  | nil => rfl
  | cons e es ih =>
    cases es with
    | nil => simp [list]
    | cons next es =>
      rw [list_cons_cons, moved_append, moved, moved, ih]
      rfl

theorem spelled_append (f : List Char → List Char) (a b : Code) :
    (a.append b).spelled f = (a.spelled f).append (b.spelled f) := by
  induction a with
  | done => rfl
  | word t rest ih => rw [append, spelled, spelled, append, ih]
  | call t gap inside rest _ ih => rw [append, spelled, spelled, append, ih]
  | group b inside rest _ ih => rw [append, spelled, spelled, append, ih]
  | literal q t rest ih => rw [append, spelled, spelled, append, ih]
  | mark c rest ih => rw [append, spelled, spelled, append, ih]

theorem spelled_list (f : List Char → List Char) (es : List Code) :
    (list es).spelled f = list (es.map (spelled f)) := by
  induction es with
  | nil => rfl
  | cons e es ih =>
    cases es with
    | nil => rfl
    | cons next es =>
      rw [list_cons_cons, spelled_append, spelled, spelled, ih]
      rfl

theorem objects_append (a b : Code) : (a.append b).Objects name ↔ a.Objects name ∧ b.Objects name := by
  induction a with
  | done => simp [append, Objects]
  | word t rest ih => exact ih
  | call t gap inside rest _ ih => rw [append, Objects, Objects, ih, and_assoc]
  | group k inside rest _ ih => rw [append, Objects, Objects, ih, and_assoc]
  | literal q t rest ih => exact ih
  | mark c rest ih => exact ih

theorem objects_list {es : List Code} (each : ∀ e ∈ es, e.Objects name) : (list es).Objects name := by
  induction es with
  | nil => trivial
  | cons e es ih =>
    have later := ih fun x member => each x (by simp [member])
    have here := each e (by simp)
    cases es with
    | nil => exact here
    | cons next es => exact (objects_append _ _).mpr ⟨here, later⟩

/-- Code stays when all that is spelled in it stays. -/
theorem spelled_eq_self {f : List Char → List Char} {e : Code} (stays : ∀ t : List Char, t ⊆ e.chars → f t = t) :
    e.spelled f = e := by
  induction e with
  | done => rfl
  | word t rest ih =>
    rw [spelled, stays t (by simp [chars]), ih fun u sub => stays u (List.Subset.trans sub (by simp [chars]))]
  | call t gap inside rest ihInside ih =>
    have within : inside.chars ⊆ (call t gap inside rest).chars := fun c member => by simp [chars, member]
    have behind : rest.chars ⊆ (call t gap inside rest).chars := fun c member => by simp [chars, member]
    rw [spelled, stays t (by simp [chars]), ihInside fun u sub => stays u (List.Subset.trans sub within),
      ih fun u sub => stays u (List.Subset.trans sub behind)]
  | group b inside rest ihInside ih =>
    have within : inside.chars ⊆ (group b inside rest).chars := fun c member => by simp [chars, member]
    have behind : rest.chars ⊆ (group b inside rest).chars := fun c member => by simp [chars, member]
    rw [spelled, ihInside fun u sub => stays u (List.Subset.trans sub within),
      ih fun u sub => stays u (List.Subset.trans sub behind)]
  | literal q t rest ih =>
    have contents : t ⊆ (literal q t rest).chars := fun c member => by simp [chars, member]
    have behind : rest.chars ⊆ (literal q t rest).chars := fun c member => by simp [chars, member]
    rw [spelled, stays t contents, ih fun u sub => stays u (List.Subset.trans sub behind)]
  | mark c rest ih => rw [spelled, ih fun u sub => stays u (List.Subset.trans sub (by simp [chars]))]

end Code

/-! ## Writing a list -/

/-- For an attribute a text is written as another, whatever follows. -/
def WrittenAs (text written : List Char) : Prop :=
  ∀ cs, attributeSafeChars (text ++ cs) = written ++ attributeSafeChars cs

namespace WrittenAs

theorem plain {text : List Char} (free : '"' ∉ text ∧ '\'' ∉ text) : WrittenAs text text :=
  Literal.attributeSafeChars_append free

theorem literal {t : List Char} (free : '"' ∉ t ∧ '\'' ∉ t) (unescaped : '\\' ∉ t) :
    WrittenAs ('"' :: (t ++ ['"'])) ('\'' :: (t ++ ['\''])) := fun cs => by
  simpa using Literal.attributeSafeChars_literal free unescaped cs

theorem append {a b a' b' : List Char} (front : WrittenAs a a') (back : WrittenAs b b') :
    WrittenAs (a ++ b) (a' ++ b') := fun cs => by
  rw [List.append_assoc, front, back, List.append_assoc]

theorem joinChars {as bs : List (List Char)} (each : List.Forall₂ WrittenAs as bs) :
    WrittenAs (joinChars ", ".toList as) (joinChars ", ".toList bs) := by
  induction each with
  | nil => exact .plain (by simp [Text.joinChars])
  | cons first others ih =>
    cases others with
    | nil => exact first
    | cons => exact (first.append (.plain (by decide))).append ih

theorem eq {a b : List Char} (h : WrittenAs a b) : attributeSafeChars a = b := by
  have whole := h []
  have nothing : attributeSafeChars [] = [] := Literal.attributeSafeChars_eq_self (by simp)
  rwa [nothing, List.append_nil, List.append_nil] at whole

end WrittenAs

end Recast.ClassExpr
