import Recast.Generate.Declaration
import Recast.Proofs.Normalize.Token

/-!
# Indenting markup with wrapped primitives

Indentation looks at line ends only, and no tag of a primitive holds one. `shift` indents a text in
one pass, so that it can be followed through tokens: the tags stay as they are, and attributes that go
over several lines stay balanced.
-/

set_option autoImplicit false

namespace Recast.Normalize

open Recast.Text Recast.Repair Recast.Generate

/-! ## Indenting in one pass -/

/-- A place of a text that is being indented. A line end is written only when something follows. -/
inductive Place where
  | start
  | inside
  /-- Behind the end of a line, with a carriage return or not. -/
  | ended (isReturn : Bool)
  deriving DecidableEq

/-- What is written in front of a character that ends no line. -/
def Place.lead : Place → List Char
  | start => [' ', ' ']
  | inside => []
  | ended _ => ['\n', ' ', ' ']

/-- What is written in front of another line end. -/
def Place.gap : Place → List Char
  | ended _ => ['\n']
  | _ => []

/-- What is written for one character, and the place behind it. -/
def Place.shiftChar (place : Place) (c : Char) : List Char × Place :=
  if place = ended true ∧ c = '\n' then ([], ended false)
  else if isLineEnd c then (place.gap, ended (c == '\r'))
  else (place.lead ++ [c], inside)

def Place.behind (place : Place) (text : List Char) : Place :=
  text.foldl (fun place c => (place.shiftChar c).2) place

/-- A text with its lines indented. -/
def shift : Place → List Char → List Char
  | _, [] => []
  | place, c :: cs => (place.shiftChar c).1 ++ shift (place.shiftChar c).2 cs

theorem shiftChar_of_not_lineEnd {c : Char} (h : isLineEnd c = false) (place : Place) :
    place.shiftChar c = (place.lead ++ [c], .inside) := by
  have other : ¬ (place = .ended true ∧ c = '\n') := by
    rintro ⟨-, rfl⟩
    exact absurd h (by decide)
  rw [Place.shiftChar, if_neg other, h, if_neg Bool.false_ne_true]

theorem shiftChar_of_lineEnd {c : Char} (h : isLineEnd c = true) {place : Place}
    (other : place ≠ .ended true) : place.shiftChar c = (place.gap, .ended (c == '\r')) := by
  rw [Place.shiftChar, if_neg (fun both => other both.1), if_pos h]

theorem shift_append (place : Place) (front back : List Char) :
    shift place (front ++ back) = shift place front ++ shift (place.behind front) back := by
  induction front generalizing place with
  | nil => rfl
  | cons c front ih => rw [List.cons_append, shift, ih, shift, List.append_assoc]; rfl

theorem shift_of_not_lineEnd {c : Char} (h : isLineEnd c = false) (place : Place) (cs : List Char) :
    shift place (c :: cs) = place.lead ++ c :: shift .inside cs := by
  rw [shift, shiftChar_of_not_lineEnd h, List.append_assoc, List.singleton_append]

theorem shift_inside_of_forall {text : List Char} (h : ∀ c ∈ text, isLineEnd c = false)
    (rest : List Char) : shift .inside (text ++ rest) = text ++ shift .inside rest := by
  induction text with
  | nil => rfl
  | cons c text ih =>
    have later : ∀ d ∈ text, isLineEnd d = false := fun d hd => h d (by simp [hd])
    rw [List.cons_append, shift_of_not_lineEnd (h c (by simp)), ih later]
    rfl

def indented (line : List Char) : List Char := if line = [] then [] else ' ' :: ' ' :: line

/-- The lines that follow others, each behind a line feed. -/
def followed : List (List Char) → List Char
  | [] => []
  | line :: rest => '\n' :: (indented line ++ followed rest)

theorem joinChars_cons (line : List Char) (rest : List (List Char)) :
    joinChars ['\n'] (line :: rest.map indented) = line ++ followed rest := by
  induction rest generalizing line with
  | nil => simp [joinChars, followed]
  | cons next rest ih => simp [joinChars, followed, ih]

theorem shift_ended_of_ne {cs : List Char} (h : ∀ rest, cs ≠ '\n' :: rest) (isReturn : Bool) :
    shift (.ended isReturn) cs = shift (.ended false) cs := by
  cases cs with
  | nil => rfl
  | cons c cs =>
    have other : c ≠ '\n' := fun e => h cs (by rw [e])
    simp [shift, Place.shiftChar, other, Place.lead, Place.gap]

/-- The lines that go on with a line that was started. -/
def resumed : List (List Char) → List Char
  | [] => []
  | line :: rest => line ++ followed rest

/-- Indenting in one pass is indenting line by line. -/
theorem shift_eq_lines (cs : List Char) :
    shift .start cs = joinChars ['\n'] ((linesFrom cs).map indented) ∧
      shift .inside cs = resumed (linesFrom cs) ∧
      shift (.ended false) cs = followed (linesFrom cs) := by
  fun_induction linesFrom cs with
  | case1 => simp [shift, joinChars, followed, resumed]
  | case2 rest ih =>
    have lineEnd : isLineEnd '\r' = true := by decide
    have step : ∀ place : Place, place ≠ .ended true →
        shift place ('\r' :: '\n' :: rest) = place.gap ++ shift (.ended false) rest := by
      intro place other
      rw [shift, shiftChar_of_lineEnd lineEnd other]
      rfl
    rw [step _ (by simp), step _ (by simp), step _ (by simp), ih.2.2, List.map_cons, joinChars_cons]
    simp [Place.gap, indented, resumed, followed]
  | case3 c rest notReturn lineEnd ih =>
    have unread : shift (.ended (c == '\r')) rest = shift (.ended false) rest := by
      cases isReturn : c == '\r' with
      | false => rfl
      | true =>
        refine shift_ended_of_ne (fun more feed => ?_) true
        exact notReturn more (by simpa using isReturn) feed
    have step : ∀ place : Place, place ≠ .ended true →
        shift place (c :: rest) = place.gap ++ shift (.ended false) rest := by
      intro place other
      rw [shift, shiftChar_of_lineEnd lineEnd other, unread]
    rw [step _ (by simp), step _ (by simp), step _ (by simp), ih.2.2, List.map_cons, joinChars_cons]
    simp [Place.gap, indented, resumed, followed]
  | case4 c rest notReturn lineEnd ih =>
    have plain : isLineEnd c = false := by simpa using lineEnd
    rw [shift_of_not_lineEnd plain, shift_of_not_lineEnd plain, shift_of_not_lineEnd plain, ih.2.1]
    cases linesFrom rest with
    | nil => simp [pushWord, Place.lead, resumed, followed, indented, joinChars]
    | cons line more =>
      simp [pushWord, Place.lead, resumed, followed, indented, joinChars_cons]

theorem toList_join (sep : String) (parts : List String) :
    (join sep parts).toList = joinChars sep.toList (parts.map String.toList) := by
  fun_induction join sep parts with
  | case1 => rfl
  | case2 part => rfl
  | case3 part parts nonempty ih =>
    obtain ⟨next, parts, rfl⟩ := List.exists_cons_of_ne_nil nonempty
    simp [joinChars, ih]

theorem toList_indentLines (text : String) :
    (indentLines text).toList = shift .start text.toList := by
  have line : ∀ cs : List Char,
      (if String.ofList cs = "" then "" else indent ++ String.ofList cs).toList = indented cs := by
    intro cs
    by_cases empty : cs = []
    · simp [empty, indented]
    · simp [empty, indented, indent]
  rw [indentLines, toList_join, (shift_eq_lines text.toList).1, lines, List.map_map, List.map_map]
  refine congrArg _ (List.map_congr_left fun cs _ => ?_)
  exact line cs

/-! ## Indenting tokens -/

def Place.shiftToken (place : Place) : Token → List Token × Place
  | .char c => ((place.shiftChar c).1.map .char, (place.shiftChar c).2)
  | t => (place.lead.map .char ++ [t], inside)

def shiftTokens : Place → List Token → List Token
  | _, [] => []
  | place, t :: ts => (place.shiftToken t).1 ++ shiftTokens (place.shiftToken t).2 ts

theorem isLineEnd_eq_false_of_isBlank {c : Char} (h : isBlank c = false) : isLineEnd c = false := by
  simp only [isBlank, isLineEnd, inRanges, blankRanges, List.any_cons, List.any_nil,
    Bool.or_eq_false_iff, Bool.and_eq_false_iff, decide_eq_false_iff_not, and_true] at h ⊢
  omega

/-- The tags of primitives hold no line end. -/
theorem isLineEnd_text (target : Target) (stage : Stage) {t : Token} (tag : ∀ c, t ≠ .char c) :
    ∀ c ∈ t.text target stage, isLineEnd c = false := by
  have letters : ∀ p : Primitive, p.tag.toList.all (!isLineEnd ·) = true := by
    intro p
    rw [List.all_eq_true]
    intro c inTag
    rw [isLineEnd_eq_false_of_isBlank (isBlank_eq_false_of_isTagLetter (p.tag_letters c inTag))]
    rfl
  have names : ∀ p : Primitive, p.name.toList.all (!isLineEnd ·) = true := by
    intro p
    rw [List.all_eq_true]
    intro c inName
    rw [isLineEnd_eq_false_of_isBlank (isBlank_eq_false_of_isNameChar (p.name_chars c inName))]
    rfl
  have named : ∀ p : Primitive, (nameText target p.name.toList).all (!isLineEnd ·) = true := by
    intro p
    cases target with
    | svelte => simp only [nameText_svelte, List.all_append, names]; rfl
    | vue => simp only [nameText_vue, List.all_append, names]; rfl
  have dynamic : (dynamicTag target).all (!isLineEnd ·) = true := by cases target <;> rfl
  have marker : (closingMarker target).all (!isLineEnd ·) = true := by cases target <;> rfl
  have all : (t.text target stage).all (!isLineEnd ·) = true := by
    cases t with
    | char c => exact absurd rfl (tag c)
    | opens p =>
      cases stage <;> simp only [Token.text, List.all_cons, List.all_append, letters, named, dynamic] <;> rfl
    | closes p =>
      cases stage <;> simp only [Token.text, List.all_cons, List.all_append, letters, marker] <;> rfl
    | finishes p =>
      cases stage <;> simp only [Token.text, List.all_cons, List.all_append, letters, marker] <;> rfl
  intro c inText
  simpa using List.all_eq_true.mp all c inText

theorem shift_tag (target : Target) (stage : Stage) {t : Token} (tag : ∀ c, t ≠ .char c) (place : Place)
    (rest : List Char) :
    shift place (t.text target stage ++ rest) =
      place.lead ++ (t.text target stage ++ shift .inside rest) := by
  have lineless := isLineEnd_text target stage tag
  have noBlank : t.isBlank = false := by
    cases t with
    | char c => exact absurd rfl (tag c)
    | _ => rfl
  obtain ⟨front, last, shape, -⟩ := text_eq_concat target stage noBlank
  obtain ⟨c, more, start⟩ := List.exists_cons_of_ne_nil (l := t.text target stage) (by simp [shape])
  rw [start] at lineless ⊢
  rw [List.cons_append, shift_of_not_lineEnd (lineless c (by simp)),
    shift_inside_of_forall (fun d inMore => lineless d (by simp [inMore]))]
  rfl

/-- Indentation does not depend on how tags are spelled. -/
theorem shift_spell (target : Target) (stage : Stage) (place : Place) (ts : List Token) :
    shift place (spell target stage ts) = spell target stage (shiftTokens place ts) := by
  induction ts generalizing place with
  | nil => rfl
  | cons t ts ih =>
    rw [spell_cons, shiftTokens, spell_append, ← ih]
    cases t with
    | char c => rw [Place.shiftToken, spell_chars]; rfl
    | opens p => rw [shift_tag target stage (by simp)]; simp [Place.shiftToken]
    | closes p => rw [shift_tag target stage (by simp)]; simp [Place.shiftToken]
    | finishes p => rw [shift_tag target stage (by simp)]; simp [Place.shiftToken]

/-! ## Attributes on several lines -/

theorem mem_lead {place : Place} {d : Char} (h : d ∈ place.lead) : d = '\n' ∨ d = ' ' := by
  cases place <;> simp [Place.lead] at h <;> simp [h]

theorem lead_balanced (b : Bool) (place : Place) : Balanced b place.lead := by
  cases place <;> exact .of_plain b (List.all_eq_true.mp rfl)

theorem gap_balanced (b : Bool) (place : Place) : Balanced b place.gap := by
  cases place <;> exact .of_plain b (List.all_eq_true.mp rfl)

theorem mem_shift {place : Place} {text : List Char} {d : Char} (h : d ∈ shift place text) :
    d ∈ text ∨ d = '\n' ∨ d = ' ' := by
  induction text generalizing place with
  | nil => simp [shift] at h
  | cons c text ih =>
    rw [shift, List.mem_append] at h
    rcases h with here | later
    · by_cases lineEnd : isLineEnd c = true
      · rw [Place.shiftChar] at here
        split at here
        · simp at here
        · cases place <;> simp [Place.gap] at here
          simp [here]
      · rw [shiftChar_of_not_lineEnd (by simpa using lineEnd), List.mem_append] at here
        rcases here with inLead | same
        · exact .inr (mem_lead inLead)
        · exact .inl (by simp [List.mem_singleton.mp same])
    · rcases ih later with inText | added
      · exact .inl (.tail _ inText)
      · exact .inr added

theorem shift_balanced {b : Bool} {text : List Char} (h : Balanced b text) (place : Place) :
    Balanced b (shift place text) := by
  have quote : ∀ {q : Char}, q = '"' ∨ q = '\'' → isLineEnd q = false ∧ q ≠ '\n' ∧ q ≠ ' ' := by
    rintro q (rfl | rfl) <;> decide
  induction h generalizing place with
  | nil b => exact .nil b
  | @char b c rest h1 h2 h3 h4 h5 _ ih =>
    by_cases lineEnd : isLineEnd c = true
    · rw [shift, Place.shiftChar]
      split
      · exact ih _
      · exact (gap_balanced b place).append (ih _)
    · rw [shift_of_not_lineEnd (by simpa using lineEnd)]
      exact (lead_balanced b place).append (.char h1 h2 h3 h4 h5 (ih _))
  | @quoted b q text rest hq ht _ ih =>
    obtain ⟨plain, notFeed, notBlank⟩ := quote hq
    rw [shift_of_not_lineEnd plain, shift_append, shift_of_not_lineEnd plain]
    refine (lead_balanced b place).append ?_
    rw [← List.append_assoc]
    refine .quoted hq (fun inside => ?_) (ih _)
    rcases List.mem_append.mp inside with inText | inLead
    · rcases mem_shift inText with same | feed | blank
      · exact ht same
      · exact notFeed feed
      · exact notBlank blank
    · rcases mem_lead inLead with feed | blank
      · exact notFeed feed
      · exact notBlank blank
  | @braced b inside rest _ _ ihInside ihRest =>
    rw [shift_of_not_lineEnd (by decide), shift_append, shift_of_not_lineEnd (by decide)]
    refine (lead_balanced b place).append ?_
    rw [← List.append_assoc]
    exact .braced ((ihInside _).append (lead_balanced true _)) (ihRest _)

theorem isLineEnd_of_isValueEnd {c : Char} (h : isValueEnd c = true) : isLineEnd c = false := by
  simp only [isValueEnd, Bool.or_eq_true, beq_iff_eq] at h
  rcases h with rfl | rfl <;> decide

theorem shift_attributes {text : List Char} (h : Attributes text) :
    Attributes (shift .inside text) ∧ Place.inside.behind text = .inside := by
  rcases List.eq_nil_or_concat text with rfl | ⟨front, last, rfl⟩
  · exact ⟨h, rfl⟩
  rw [List.concat_eq_append] at h ⊢
  have ending : isValueEnd last = true := by simpa using h.ending
  have plain := isLineEnd_of_isValueEnd ending
  refine ⟨⟨shift_balanced h.balanced _, ?_, ?_⟩, ?_⟩
  · rcases h.spaced with empty | ⟨c, rest, shape, first⟩
    · simp at empty
    · refine .inr ⟨c, shift .inside rest, ?_, first⟩
      rw [shape, shift_of_not_lineEnd (by decide),
        shift_of_not_lineEnd (isLineEnd_eq_false_of_isBlank first)]
      rfl
  · rw [shift_append, shift_of_not_lineEnd plain]
    simp [shift, ending]
  · rw [Place.behind, List.foldl_append, List.foldl_cons, shiftChar_of_not_lineEnd plain]
    rfl

theorem shiftTokens_chars (place : Place) (text : List Char) (ts : List Token) :
    shiftTokens place (text.map .char ++ ts) =
      (shift place text).map .char ++ shiftTokens (place.behind text) ts := by
  induction text generalizing place with
  | nil => rfl
  | cons c text ih =>
    rw [List.map_cons, List.cons_append, shiftTokens, Place.shiftToken, ih, shift, List.map_append,
      List.append_assoc]
    rfl

theorem Reads.shift {s s' : List Primitive} {ts : List Token} (h : Reads s ts s') (place : Place) :
    Reads s (shiftTokens place ts) s' := by
  induction h generalizing place with
  | nil s => exact .nil s
  | @char s s' c ts _ ih => exact (Reads.chars s _).append (ih _)
  | @opened s s' p text ts plain attributes _ ih =>
    obtain ⟨shifted, stays⟩ := shift_attributes attributes
    have bracket : shiftTokens .inside (.char '>' :: ts) = .char '>' :: shiftTokens .inside ts := by
      rw [shiftTokens, Place.shiftToken, shiftChar_of_not_lineEnd (by decide)]
      rfl
    rw [shiftTokens, Place.shiftToken, shiftTokens_chars, stays, bracket, List.append_assoc]
    · exact (Reads.chars s _).append (.opened plain shifted (ih _))
    · simp
  | @closed s s' p ts plain _ ih =>
    rw [shiftTokens, Place.shiftToken, List.append_assoc]
    · exact (Reads.chars _ _).append (.closed plain (ih _))
    · simp
  | @void s s' p text ts isVoid attributes _ ih =>
    obtain ⟨shifted, stays⟩ := shift_attributes attributes
    have finished : shiftTokens .inside (.finishes p :: ts) = .finishes p :: shiftTokens .inside ts := rfl
    rw [shiftTokens, Place.shiftToken, shiftTokens_chars, stays, finished, List.append_assoc]
    · exact (Reads.chars s _).append (.void isVoid shifted (ih _))
    · simp

end Recast.Normalize
