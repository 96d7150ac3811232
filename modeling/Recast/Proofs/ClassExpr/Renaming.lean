import Recast.ClassExpr.Basic
import Recast.Proofs.ClassExpr.Code

/-!
# Renaming identifiers

Renaming works on text: it looks at names between string literals and passes over those behind a dot.
`Token` is the lexical structure of an expression, which says for each name what it is used for.
`renameIdentifiers_eq` says which of the names are replaced, and `renames_references_iff` when these are the
references.
-/

set_option autoImplicit false

namespace Recast.ClassExpr.Renaming

open Recast.Text

/-! ## Lexical structure -/

/-- What a name or a mark stands in. Quotes and holes of templates belong to the template. -/
inductive Place where
  | code
  | template
  | comment
  | pattern
  deriving DecidableEq, Repr

/-- The lexical elements of an expression, as the source language has them. Only the dollar sign in front of a
hole counts to the word in front of it. -/
inductive Token where
  | word (place : Place) (name : List Char)
  | mark (place : Place) (c : Char)
  | spread
  | string (q : Char) (contents : List Char)
  deriving DecidableEq, Repr

def Token.chars : Token → List Char
  | word _ name => name
  | mark _ c => [c]
  | spread => ['.', '.', '.']
  | string q contents => q :: (contents ++ [q])

def textOf (ts : List Token) : List Char := ts.flatMap Token.chars

def startsWord : List Token → Bool
  | .word _ _ :: _ => true
  | _ => false

/-- A word as a scan sees it, as far as it goes. -/
def IsRun (t : List Char) : Prop := t ≠ [] ∧ ∀ c ∈ t, continuesName c = true

instance (t : List Char) : Decidable (IsRun t) :=
  decidable_of_iff (t ≠ [] ∧ t.all continuesName = true) (by simp [IsRun])

/-- Words are not cut, three dots in code are those of a spread, string literals end at their closing quotes,
and a quote that opens none is one that nothing closes. -/
def Formed : List Token → Prop
  | [] => True
  | .word _ name :: ts => IsRun name ∧ startsWord ts = false ∧ Formed ts
  | .mark place c :: ts => continuesName c = false ∧ literal? (c :: textOf ts) = none ∧
    (place = .code ∧ c = '.' → ¬ ['.', '.'] <+: textOf ts) ∧ Formed ts
  | .spread :: ts => Formed ts
  | .string q contents :: ts => (q = '"' ∨ q = '\'') ∧ closes q contents = true ∧ Formed ts

instance decidableFormed : (ts : List Token) → Decidable (Formed ts)
  | [] => .isTrue trivial
  | .word _ _ :: ts =>
    have := decidableFormed ts
    inferInstanceAs (Decidable (_ ∧ _))
  | .mark _ _ :: ts =>
    have := decidableFormed ts
    inferInstanceAs (Decidable (_ ∧ _))
  | .spread :: ts => decidableFormed ts
  | .string _ _ :: ts =>
    have := decidableFormed ts
    inferInstanceAs (Decidable (_ ∧ _))

/-! ## Uses of names -/

/-- What stands directly in front of a place. -/
inductive Behind where
  | dot
  | spread
  | other
  deriving DecidableEq, Repr

/-- What is known in front of a place: whether code asks for the name of a member next, or for a private
name. -/
structure Front where
  expects : Bool := false
  behind : Behind := .other

inductive Use where
  | reference
  /-- Directly behind the dots of a spread. -/
  | operand
  /-- The name of a member directly behind its dot. -/
  | member
  /-- The name of a member behind blanks or a comment, or a private name. -/
  | apart
  | text (behindDot : Bool)
  deriving DecidableEq, Repr

namespace Use

/-- Operands of a spread are references. -/
def isReference : Use → Bool
  | reference => true
  | operand => true
  | _ => false

/-- Names directly behind a dot stay, whatever the dot is. -/
def isReplaced : Use → Bool
  | reference => true
  | apart => true
  | text behindDot => !behindDot
  | _ => false

end Use

namespace Front

def use (f : Front) : Place → Use
  | .code =>
    match f.behind with
    | .spread => .operand
    | .dot => .member
    | .other => if f.expects then .apart else .reference
  | _ => .text (f.behind != .other)

/-- Blanks and comments do not change what code asks for. -/
def after (f : Front) : Token → Front
  | .word place _ => ⟨place == .comment && f.expects, .other⟩
  | .mark place c =>
    { behind := if c = '.' then .dot else .other
      expects :=
        match place with
        | .code => c == '.' || c == '#' || (isBlank c && f.expects)
        | .comment => f.expects
        | _ => false }
  | .spread => ⟨false, .spread⟩
  | .string _ _ => ⟨false, .other⟩

end Front

def Token.uses (f : Front) : Token → List (List Char × Use)
  | word place name => [(name, f.use place)]
  | _ => []

def Token.renamed (replaces : Use → Bool) (new : List Char → List Char) (f : Front) : Token → List Char
  | word place name => if replaces (f.use place) then new name else name
  | t => t.chars

/-- The words of an expression with what they are used for. -/
def usesFrom (f : Front) : List Token → List (List Char × Use)
  | [] => []
  | t :: ts => t.uses f ++ usesFrom (f.after t) ts

/-- The text of an expression with new names for the words that are used in some ways. -/
def renamedFrom (replaces : Use → Bool) (new : List Char → List Char) (f : Front) : List Token → List Char
  | [] => []
  | t :: ts => t.renamed replaces new f ++ renamedFrom replaces new (f.after t) ts

/-- What a table of names says about a name. -/
def newName (renames : Assoc String) (name : List Char) : List Char :=
  ((renames.get? (String.ofList name)).map (·.toList)).getD name

/-- A name, or the path of a prop. -/
def IsNewName (name : List Char) : Prop := IsRun name ∨ ∃ prop, IsRun prop ∧ name = "props.".toList ++ prop

structure IsRenaming (renames : Assoc String) : Prop where
  distinct : renames.keys.Nodup
  names : ∀ key ∈ renames.keys, IsRun key.toList
  values : ∀ entry ∈ renames, IsNewName entry.2.toList

/-! ## Scanning code -/

section Scan

variable {rs : List (List Char × List Char)} {previous : Option Char}

theorem renameFrom_skip (rs : List (List Char × List Char)) (s cs : List Char) (previous : Option Char) :
    renameFrom joinsName continuesName rs s.length previous (s ++ cs) =
      renameFrom joinsName continuesName rs 0 (lastOr previous s) cs := by
  induction s generalizing previous with
  | nil => rfl
  | cons c s ih => rw [List.length_cons, List.cons_append, renameFrom, ih, lastOr_cons]

/-- The first entry for a name that is not joined to something in front of it. -/
def entryAt? (rs : List (List Char × List Char)) (previous : Option Char) (name : List Char) :
    Option (List Char × List Char) :=
  if previous.any joinsName then none else rs.find? (·.1 == name)

theorem continuesName_joins {c : Char} (h : continuesName c = true) : joinsName c = true := by
  rw [continuesName, Bool.or_eq_true] at h
  simp only [joinsName, Bool.or_eq_true]
  tauto

/-- A run in front of what does not go on with it is the only name that can start there. -/
theorem find?_run (keys : ∀ entry ∈ rs, IsRun entry.1) {name t : List Char} (run : IsRun name)
    (stop : t.head?.any continuesName = false) :
    (rs.find? fun entry => entry.1 ≠ [] && !previous.any joinsName &&
      (after? entry.1 (name ++ t)).any fun rest => !rest.head?.any continuesName) = entryAt? rs previous name := by
  have same : ∀ entry ∈ rs, (decide (entry.1 ≠ []) && !previous.any joinsName &&
      (after? entry.1 (name ++ t)).any fun rest => !rest.head?.any continuesName) =
        (!previous.any joinsName && entry.1 == name) := by
    intro entry member
    have key := keys entry member
    rw [decide_eq_true key.1, Bool.true_and]
    congr 1
    rw [Bool.eq_iff_iff, beq_iff_eq]
    constructor
    · intro starts
      obtain ⟨rest, found, stops⟩ := (Option.any_eq_true _ _).mp starts
      rw [Bool.not_eq_true'] at stops
      exact (append_inj_of_head key.2 run.2 stops stop (after?_eq_some_iff.mp found).symm).1
    · rintro rfl
      rw [after?_append, Option.any_some, stop]
      rfl
  rw [← List.head?_filter, List.filter_congr same, List.head?_filter, entryAt?]
  cases previous.any joinsName <;> simp

/-- Behind a character of a name nothing starts. -/
theorem renameFrom_inside {c : Char} (joined : joinsName c = true) {s : List Char}
    (run : ∀ d ∈ s, continuesName d = true) (t : List Char) :
    renameFrom joinsName continuesName rs 0 (some c) (s ++ t) =
      s ++ renameFrom joinsName continuesName rs 0 (lastOr (some c) s) t := by
  induction s generalizing c with
  | nil => rfl
  | cons d s ih =>
    rw [List.cons_append, renameFrom, List.find?_eq_none.mpr (by simp [joined]), List.cons_append, lastOr_cons]
    rw [ih (continuesName_joins (run d (by simp))) fun e member => run e (by simp [member])]

theorem renameFrom_run (keys : ∀ entry ∈ rs, IsRun entry.1) {name t : List Char} (run : IsRun name)
    (stop : t.head?.any continuesName = false) :
    renameFrom joinsName continuesName rs 0 previous (name ++ t) =
      ((entryAt? rs previous name).map (·.2)).getD name ++
        renameFrom joinsName continuesName rs 0 (lastOr previous name) t := by
  have found := @find?_run rs previous keys _ _ run stop
  obtain ⟨c, s, rfl⟩ := List.exists_cons_of_ne_nil run.1
  have inside : ∀ d ∈ s, continuesName d = true := fun d member => run.2 d (by simp [member])
  rw [List.cons_append] at found ⊢
  rw [renameFrom, found, lastOr_cons]
  cases chosen : entryAt? rs previous (c :: s) with
  | none => rw [renameFrom_inside (continuesName_joins (run.2 c (by simp))) inside]; rfl
  | some entry =>
    have key : entry.1 = c :: s := by
      rw [entryAt?] at chosen
      split at chosen
      · cases chosen
      · simpa using List.find?_some chosen
    have rest : entry.1.length - 1 = s.length := by simp [key]
    dsimp only
    rw [rest, renameFrom_skip]
    rfl

theorem renameFrom_mark (keys : ∀ entry ∈ rs, IsRun entry.1) {c : Char} (other : continuesName c = false)
    (t : List Char) :
    renameFrom joinsName continuesName rs 0 previous (c :: t) =
      c :: renameFrom joinsName continuesName rs 0 (some c) t := by
  rw [renameFrom, List.find?_eq_none.mpr]
  intro entry member
  obtain ⟨d, s, key⟩ := List.exists_cons_of_ne_nil (keys entry member).1
  have differs : d ≠ c := by
    rintro rfl
    rw [(keys entry member).2 d (by simp [key])] at other
    cases other
  simp [key, after?, differs]

end Scan

/-! ## Scanning between literals -/

/-- The code that a list of pieces starts with, and the pieces behind it. -/
def leading : List Piece → List Char × List Piece
  | .code t :: ps => (t, ps)
  | ps => ([], ps)

/-- Renaming behind a character. -/
def scanned (rs : List (List Char × List Char)) (previous : Option Char) (cs : List Char) : List Char :=
  renameFrom joinsName continuesName rs 0 previous (leading (pieces cs)).1 ++
    (leading (pieces cs)).2.flatMap (renamePiece rs)

theorem pieces_cons {c : Char} {cs : List Char} (nothing : literal? (c :: cs) = none) :
    pieces (c :: cs) = .code (c :: (leading (pieces cs)).1) :: (leading (pieces cs)).2 := by
  rw [pieces]
  split
  · rename_i found
    rw [nothing] at found
    cases found
  · rw [pushCode.eq_def]
    split <;> simp_all [leading]

theorem pieces_append {s : List Char} (free : ∀ c ∈ s, c ≠ '"' ∧ c ≠ '\'') (nonempty : s ≠ []) (cs : List Char) :
    pieces (s ++ cs) = .code (s ++ (leading (pieces cs)).1) :: (leading (pieces cs)).2 := by
  induction s with
  | nil => exact absurd rfl nonempty
  | cons c s ih =>
    have nothing : literal? (c :: (s ++ cs)) = none := by simp [literal?, free c (by simp)]
    rw [List.cons_append, pieces_cons nothing]
    cases s with
    | nil => rfl
    | cons d s => rw [ih (fun e member => free e (by simp [member])) (by simp)]; rfl

theorem pieces_literal {cs l r : List Char} (found : literal? cs = some (l, r)) :
    pieces cs = .literal l :: pieces r := by
  cases cs with
  | nil => cases found
  | cons c cs =>
    rw [pieces]
    split
    · rename_i same
      rw [found] at same
      cases same
      rfl
    · rename_i same
      rw [found] at same
      cases same

theorem leading_stop {cs : List Char} (stop : cs.head?.any continuesName = false) :
    (leading (pieces cs)).1.head?.any continuesName = false := by
  cases cs with
  | nil => rw [pieces]; rfl
  | cons c cs =>
    cases found : literal? (c :: cs) with
    | none => rw [pieces_cons found]; exact stop
    | some r => rw [pieces_literal found]; rfl

theorem literalRest?_closes {q : Char} {contents : List Char} (closed : closes q contents = true) (cs : List Char)
    (escape : q ≠ '\\') : literalRest? q (contents ++ q :: cs) = some (contents ++ [q], cs) := by
  fun_induction closes q contents with
  | case1 =>
    rw [List.nil_append, literalRest?.eq_def]
    split <;> simp_all
  | case2 c contents ih =>
    rw [Bool.and_eq_true, bne_iff_ne] at closed
    rw [List.cons_append, List.cons_append, literalRest?, if_neg closed.1, ih closed.2]
    rfl
  | case3 c contents other ih =>
    simp only [Bool.and_eq_true, bne_iff_ne] at closed
    rw [List.cons_append, literalRest?.eq_def]
    split <;> simp_all

section Step

variable {rs : List (List Char × List Char)} {previous : Option Char} {cs : List Char}

theorem scanned_mark (keys : ∀ entry ∈ rs, IsRun entry.1) {c : Char} (other : continuesName c = false)
    (nothing : literal? (c :: cs) = none) : scanned rs previous (c :: cs) = c :: scanned rs (some c) cs := by
  rw [scanned, scanned, pieces_cons nothing, leading, renameFrom_mark keys other, List.cons_append]

theorem scanned_run (keys : ∀ entry ∈ rs, IsRun entry.1) {name : List Char} (run : IsRun name)
    (stop : cs.head?.any continuesName = false) :
    scanned rs previous (name ++ cs) =
      ((entryAt? rs previous name).map (·.2)).getD name ++ scanned rs (lastOr previous name) cs := by
  have free : ∀ c ∈ name, c ≠ '"' ∧ c ≠ '\'' := by
    intro c member
    have continues := run.2 c member
    constructor
    · rintro rfl
      exact absurd continues (by decide)
    · rintro rfl
      exact absurd continues (by decide)
  rw [scanned, scanned, pieces_append free run.1, leading, renameFrom_run keys run (leading_stop stop),
    List.append_assoc]

theorem scanned_none (rs : List (List Char × List Char)) (cs : List Char) :
    scanned rs none cs = (pieces cs).flatMap (renamePiece rs) := by
  rw [scanned]
  cases pieces cs with
  | nil => simp [leading, renameFrom]
  | cons piece ps =>
    cases piece with
    | code t => rw [leading, List.flatMap_cons, renamePiece]
    | literal t => simp [leading, renameFrom]

theorem scanned_string {q : Char} (isString : q = '"' ∨ q = '\'') {contents : List Char}
    (closed : closes q contents = true) :
    scanned rs previous (q :: (contents ++ q :: cs)) = q :: (contents ++ q :: scanned rs none cs) := by
  have escape : q ≠ '\\' := by rcases isString with rfl | rfl <;> decide
  have found : literal? (q :: (contents ++ q :: cs)) = some (q :: (contents ++ [q]), cs) := by
    rw [literal?, if_pos isString, literalRest?_closes closed cs escape]
    rfl
  have own : scanned rs previous (q :: (contents ++ q :: cs)) =
      (Piece.literal (q :: (contents ++ [q])) :: pieces cs).flatMap (renamePiece rs) := by
    rw [scanned, pieces_literal found]
    exact congrArg (· ++ _) (renameFrom.eq_1 ..)
  rw [own, scanned_none, List.flatMap_cons, renamePiece]
  simp

end Step

/-! ## Expressions -/

/-- What is known in front of a place goes with the character there. -/
def Fits (f : Front) (previous : Option Char) : Prop :=
  previous.any continuesName = false ∧ previous.any joinsName = (f.behind != .other)

theorem isReplaced_use (f : Front) (place : Place) : (f.use place).isReplaced = (f.behind == .other) := by
  obtain ⟨expects, behind⟩ := f
  cases place <;> cases behind <;> cases expects <;> rfl

theorem joinsName_mark {c : Char} (other : continuesName c = false) : joinsName c = (c == '.') := by
  rw [continuesName, Bool.or_eq_false_iff] at other
  simp [joinsName, other]

theorem fits_after_mark {c : Char} (other : continuesName c = false) (f : Front) (place : Place) :
    Fits (f.after (.mark place c)) (some c) := by
  have behind : (f.after (.mark place c)).behind = if c = '.' then .dot else .other := rfl
  refine ⟨other, ?_⟩
  rw [Option.any_some, joinsName_mark other, behind]
  by_cases dot : c = '.' <;> simp [dot]

theorem textOf_stop {ts : List Token} (formed : Formed ts) (noWord : startsWord ts = false) :
    (textOf ts).head?.any continuesName = false := by
  match ts, formed with
  | [], _ => rfl
  | .word _ _ :: _, _ => cases noWord
  | .mark _ c :: ts, formed => exact formed.1
  | .spread :: ts, _ => exact show continuesName '.' = false by decide
  | .string q _ :: ts, formed =>
    rcases formed.1 with rfl | rfl
    · exact show continuesName '"' = false by decide
    · exact show continuesName '\'' = false by decide

def entryFor (rs : List (List Char × List Char)) (name : List Char) : List Char :=
  ((rs.find? (·.1 == name)).map (·.2)).getD name

theorem textOf_cons (t : Token) (ts : List Token) : textOf (t :: ts) = t.chars ++ textOf ts := List.flatMap_cons

/-- Names that no dot stands in front of are replaced by what the entries say. -/
theorem scanned_textOf {rs : List (List Char × List Char)} (keys : ∀ entry ∈ rs, IsRun entry.1) (ts : List Token)
    (f : Front) (previous : Option Char) (formed : Formed ts) (fits : startsWord ts = true → Fits f previous) :
    scanned rs previous (textOf ts) = renamedFrom Use.isReplaced (entryFor rs) f ts := by
  induction ts generalizing f previous with
  | nil => simp [textOf, scanned, pieces, leading, renameFrom, renamedFrom]
  | cons t ts ih =>
    rw [textOf_cons, renamedFrom]
    cases t with
    | word place name =>
      obtain ⟨run, noWord, formed⟩ := formed
      have joined := (fits rfl).2
      have behind := ih (f.after (.word place name)) (lastOr previous name) formed (by simp [noWord])
      rw [Token.chars, scanned_run keys run (textOf_stop formed noWord), behind, Token.renamed, isReplaced_use,
        entryAt?, joined]
      cases f.behind <;> rfl
    | mark place c =>
      obtain ⟨other, nothing, -, formed⟩ := formed
      have behind := ih (f.after (.mark place c)) (some c) formed fun _ => fits_after_mark other f place
      exact (scanned_mark keys other nothing).trans (congrArg (c :: ·) behind)
    | spread =>
      have dots : Fits (f.after .spread) (some '.') := ⟨by decide, show _ = (Behind.spread != .other) by decide⟩
      have behind := ih (f.after .spread) (some '.') formed fun _ => dots
      have dot : ∀ (previous : Option Char) (cs : List Char),
          scanned rs previous ('.' :: cs) = '.' :: scanned rs (some '.') cs :=
        fun previous cs => scanned_mark keys (by decide) rfl
      rw [← behind, Token.chars, Token.renamed, Token.chars]
      simp only [List.cons_append, List.nil_append, dot]
      simp
    | string q contents =>
      obtain ⟨isString, closed, formed⟩ := formed
      have behind := ih (f.after (.string q contents)) none formed fun _ => ⟨rfl, rfl⟩
      rw [← behind, Token.renamed, Token.chars]
      · simp only [List.cons_append, List.append_assoc, List.nil_append]
        exact scanned_string isString closed
      · simp

theorem renamedFrom_self {new : List Char → List Char} (same : ∀ name, new name = name) (replaces : Use → Bool)
    (f : Front) (ts : List Token) : renamedFrom replaces new f ts = textOf ts := by
  induction ts generalizing f with
  | nil => rfl
  | cons t ts ih =>
    have kept : t.renamed replaces new f = t.chars := by
      cases t <;> simp [Token.renamed, Token.chars, same]
    rw [renamedFrom, ih, kept, textOf_cons]

/-! ## Entries -/

theorem mem_longestFirst {renames : Assoc String} {entry : List Char × List Char} :
    entry ∈ longestFirst renames ↔ ∃ e ∈ renames, entry = (e.1.toList, e.2.toList) := by
  rw [longestFirst, List.mem_map]
  constructor
  · rintro ⟨e, member, rfl⟩
    exact ⟨e, (List.mergeSort_perm _ _).mem_iff.mp member, rfl⟩
  · rintro ⟨e, member, rfl⟩
    exact ⟨e, (List.mergeSort_perm _ _).mem_iff.mpr member, rfl⟩

/-- In which order the names are tried makes no difference. -/
theorem entryFor_longestFirst {renames : Assoc String} (distinct : renames.keys.Nodup) :
    entryFor (longestFirst renames) = newName renames := by
  funext name
  rw [entryFor, newName]
  cases chosen : (longestFirst renames).find? (·.1 == name) with
  | none =>
    cases found : renames.get? (String.ofList name) with
    | none => rfl
    | some value =>
      have listed := mem_longestFirst.mpr ⟨_, Assoc.mem_of_get? found, rfl⟩
      have other := List.find?_eq_none.mp chosen _ listed
      simp at other
  | some entry =>
    obtain ⟨e, member, rfl⟩ := mem_longestFirst.mp (List.mem_of_find?_eq_some chosen)
    have key : e.1.toList = name := by simpa using List.find?_some chosen
    have found := Assoc.get?_of_mem distinct member
    rw [← key, String.ofList_toList, found]
    rfl

/-- Which names are replaced, and by what. -/
theorem renameIdentifiers_eq {renames : Assoc String} (distinct : renames.keys.Nodup)
    (names : ∀ key ∈ renames.keys, IsRun key.toList) {ts : List Token} (formed : Formed ts) :
    renameIdentifiers (String.ofList (textOf ts)) renames =
      String.ofList (renamedFrom Use.isReplaced (newName renames) {} ts) := by
  have keys : ∀ entry ∈ longestFirst renames, IsRun entry.1 := by
    intro entry member
    obtain ⟨e, listed, rfl⟩ := mem_longestFirst.mp member
    exact names e.1 (List.mem_map_of_mem listed)
  have whole := scanned_textOf keys ts {} none formed fun _ => ⟨rfl, rfl⟩
  rw [scanned_none, entryFor_longestFirst distinct] at whole
  rw [renameIdentifiers]
  cases renames with
  | nil =>
    have same : ∀ name, newName [] name = name := fun _ => rfl
    rw [List.isEmpty_nil, if_pos rfl, renamedFrom_self same]
  | cons entry renames => rw [List.isEmpty_cons, if_neg Bool.false_ne_true, String.toList_ofList, whole]

/-! ## References -/

section References

variable {new : List Char → List Char}

theorem renamed_stop (new : List Char → List Char) {ts : List Token} (formed : Formed ts)
    (noWord : startsWord ts = false) (replaces : Use → Bool) (f : Front) :
    (renamedFrom replaces new f ts).head?.any continuesName = false := by
  cases ts with
  | nil => rfl
  | cons t ts =>
    have own : t.renamed replaces new f = t.chars := by
      cases t with
      | word => cases noWord
      | _ => rfl
    have stop := textOf_stop formed noWord
    have nonempty : t.chars ≠ [] := by
      cases t with
      | word => cases noWord
      | _ => simp [Token.chars]
    obtain ⟨c, cs, chars⟩ := List.exists_cons_of_ne_nil nonempty
    rw [textOf_cons, chars] at stop
    rw [renamedFrom, own, chars]
    exact stop

theorem dot_stop (cs : List Char) : ('.' :: cs).head?.any continuesName = false :=
  show continuesName '.' = false by decide

/-- Names directly behind a single dot stay. -/
def KeepsMembers (replaces : Use → Bool) : Prop := replaces .member = false ∧ replaces (.text true) = false

/-- No expression reads like itself behind another member: it would start with that member, and so on. -/
theorem renamed_ne_behind_member {p q : Use → Bool} (keeps : KeepsMembers p ∧ KeepsMembers q) {prop : List Char}
    (run : IsRun prop) : ∀ (ts : List Token) (f : Front), Formed ts → startsWord ts = false →
      '.' :: (prop ++ renamedFrom p new f ts) ≠ renamedFrom q new f ts
  | [], f, _, _ => by simp [renamedFrom]
  | .word _ _ :: _, _, _, noWord => by cases noWord
  | .spread :: ts, f, formed, _ => by
    intro same
    have second : prop ++ renamedFrom p new f (.spread :: ts) = '.' :: '.' :: renamedFrom q new (f.after .spread) ts :=
      (List.cons.inj same).2
    obtain ⟨c, cs, rfl⟩ := List.exists_cons_of_ne_nil run.1
    have dot : c = '.' := (List.cons.inj second).1
    exact absurd (run.2 c (by simp)) (by rw [dot]; decide)
  | .string q' contents :: ts, f, formed, _ => by
    intro same
    have quote : '.' = q' := (List.cons.inj same).1
    rcases formed.1 with rfl | rfl <;> exact absurd quote (by decide)
  | .mark place c :: ts, f, formed, _ => by
    intro same
    obtain ⟨rfl, behind⟩ := List.cons.inj (show '.' :: (prop ++ renamedFrom p new f (.mark place c :: ts)) =
      c :: renamedFrom q new (f.after (.mark place c)) ts from same)
    have stays : ∀ place', (Front.after f (.mark place '.')).use place' = .member ∨
        (Front.after f (.mark place '.')).use place' = .text true := by
      intro place'
      cases place' <;> simp [Front.use, Front.after]
    cases starts : startsWord ts with
    | false =>
      have stop := renamed_stop new formed.2.2.2 starts q (f.after (.mark place '.'))
      obtain ⟨d, cs, rfl⟩ := List.exists_cons_of_ne_nil run.1
      rw [← behind] at stop
      exact absurd (run.2 d (by simp)) (by rw [show continuesName d = false from stop]; decide)
    | true =>
      match ts, formed with
      | .word place' name :: ts, formed =>
        obtain ⟨-, -, -, run', noWord, formed⟩ := formed
        have kept : ∀ replaces : Use → Bool, KeepsMembers replaces →
            renamedFrom replaces new (f.after (.mark place '.')) (.word place' name :: ts) =
              name ++ renamedFrom replaces new ((f.after (.mark place '.')).after (.word place' name)) ts := by
          intro replaces keeps
          rw [renamedFrom, Token.renamed]
          rcases stays place' with use | use <;> simp [use, keeps.1, keeps.2]
        have shifted : renamedFrom p new f (.mark place '.' :: .word place' name :: ts) =
            '.' :: renamedFrom p new (f.after (.mark place '.')) (.word place' name :: ts) := rfl
        rw [shifted, kept p keeps.1, kept q keeps.2] at behind
        obtain ⟨rfl, again⟩ := append_inj_of_head run.2 run'.2 (dot_stop _) (renamed_stop new formed noWord q _) behind
        exact renamed_ne_behind_member keeps run ts _ formed noWord again

theorem renamed_word_ne {p q : Use → Bool} (keeps : KeepsMembers p ∧ KeepsMembers q) {name : List Char}
    (run : IsRun name) (isNew : IsNewName (new name)) (changes : new name ≠ name) {ts : List Token}
    (formed : Formed ts) (noWord : startsWord ts = false) (f : Front) :
    new name ++ renamedFrom p new f ts ≠ name ++ renamedFrom q new f ts := by
  intro same
  have stop := fun replaces => renamed_stop new formed noWord replaces f
  rcases isNew with run' | ⟨prop, run', path⟩
  · exact changes (append_inj_of_head run'.2 run.2 (stop p) (stop q) same).1
  · rw [path] at same
    have cut : "props".toList ++ '.' :: (prop ++ renamedFrom p new f ts) = name ++ renamedFrom q new f ts := by
      rw [← same]
      simp
    have props : IsRun "props".toList := by decide
    have behind := (append_inj_of_head props.2 run.2 (dot_stop _) (stop q) cut).2
    exact renamed_ne_behind_member keeps run' ts f formed noWord behind

theorem renamed_eq_iff {p q : Use → Bool} (keepsP : KeepsMembers p) (keepsQ : KeepsMembers q)
    (isNew : ∀ name, new name ≠ name → IsNewName (new name)) {ts : List Token} (formed : Formed ts) (f : Front) :
    renamedFrom p new f ts = renamedFrom q new f ts ↔
      ∀ e ∈ usesFrom f ts, new e.1 ≠ e.1 → p e.2 = q e.2 := by
  induction ts generalizing f with
  | nil => simp [renamedFrom, usesFrom]
  | cons t ts ih =>
    have formedTail : Formed ts := by cases t <;> first | exact formed | exact formed.2.2 | exact formed.2.2.2
    have ih := ih formedTail (f.after t)
    rw [renamedFrom, renamedFrom, usesFrom]
    cases t with
    | word place name =>
      obtain ⟨run, noWord, -⟩ := formed
      have each : (∀ e ∈ (Token.word place name).uses f ++ usesFrom (f.after (.word place name)) ts,
          new e.1 ≠ e.1 → p e.2 = q e.2) ↔ (new name ≠ name → p (f.use place) = q (f.use place)) ∧
            ∀ e ∈ usesFrom (f.after (.word place name)) ts, new e.1 ≠ e.1 → p e.2 = q e.2 := by
        simp [Token.uses]
      rw [each, ← ih, Token.renamed, Token.renamed]
      by_cases same : new name = name
      · simp [same]
      have isNew := isNew name same
      cases onP : p (f.use place) <;> cases onQ : q (f.use place)
      · simp
      · have apart := renamed_word_ne ⟨keepsQ, keepsP⟩ run isNew same formedTail noWord (f.after (.word place name))
        simp [same, apart.symm]
      · have apart := renamed_word_ne ⟨keepsP, keepsQ⟩ run isNew same formedTail noWord (f.after (.word place name))
        simp [same, apart]
      · simp
    | mark place c => exact (List.append_right_inj _).trans ih
    | spread => exact (List.append_right_inj _).trans ih
    | string q' contents => exact (List.append_right_inj _).trans ih

end References

theorem newName_cases {renames : Assoc String} (table : IsRenaming renames) {name : List Char}
    (changes : newName renames name ≠ name) : IsNewName (newName renames name) := by
  rw [newName] at changes ⊢
  cases found : renames.get? (String.ofList name) with
  | none =>
    rw [found] at changes
    exact absurd rfl changes
  | some value => exact table.values _ (Assoc.mem_of_get? found)

theorem isReplaced_eq_isReference_iff {use : Use} :
    use.isReplaced = use.isReference ↔ use = .reference ∨ use = .member ∨ use = .text true := by
  cases use with
  | text behindDot => cases behindDot <;> decide
  | _ => decide

/-- Renaming replaces the names that no dot stands directly in front of. These are the references, unless an
operand of a spread is to be renamed, or the name of a member apart from its dot, or a word outside code. -/
theorem renames_references_iff {renames : Assoc String} (table : IsRenaming renames) {ts : List Token}
    (formed : Formed ts) :
    renameIdentifiers (String.ofList (textOf ts)) renames =
        String.ofList (renamedFrom Use.isReplaced (newName renames) {} ts) ∧
      (renameIdentifiers (String.ofList (textOf ts)) renames =
          String.ofList (renamedFrom Use.isReference (newName renames) {} ts) ↔
        ∀ name use, (name, use) ∈ usesFrom {} ts → newName renames name ≠ name →
          use = .reference ∨ use = .member ∨ use = .text true) := by
  have replaced := renameIdentifiers_eq table.distinct table.names formed
  refine ⟨replaced, ?_⟩
  rw [replaced, String.ofList_inj,
    renamed_eq_iff ⟨rfl, rfl⟩ ⟨rfl, rfl⟩ (fun _ changes => newName_cases table changes) formed]
  constructor
  · intro agree name use member changes
    exact isReplaced_eq_isReference_iff.mp (agree _ member changes)
  · intro uses e member changes
    exact isReplaced_eq_isReference_iff.mpr (uses e.1 e.2 member changes)

/-- A call that spreads its operand. -/
def spreadCall : List Token :=
  [.word .code ['f'], .mark .code '(', .spread, .word .code "items".toList, .mark .code ')']

theorem renames_references_iff_spread :
    renameIdentifiers "f(...items)" [("items", "rows")] = "f(...items)" ∧
      renameIdentifiers "f(...items)" [("items", "rows")] ≠ "f(...rows)" := by
  have table : IsRenaming [("items", "rows")] := by
    refine ⟨by decide, by decide, ?_⟩
    intro entry member
    rw [List.mem_singleton.mp member]
    exact .inl (by decide)
  have formed : Formed spreadCall := by decide +kernel
  obtain ⟨replaced, references⟩ := renames_references_iff table formed
  refine ⟨replaced, ?_⟩
  intro same
  rcases references.mp same "items".toList .operand (by decide) (by decide) with other | other | other <;> cases other

example : usesFrom {} spreadCall = [(['f'], .reference), ("items".toList, .operand)] := by decide

end Recast.ClassExpr.Renaming
