import Mathlib.Data.List.Forall2
import Recast.Proofs.ClassExpr.Arguments

/-!
# The passed class in plain merging calls

Class expressions as they are mostly written: a merging call with names, string literals and one variant call,
which takes an object of names. Adapted to a target, the class that callers pass is no entry of that object but
the last argument of the merging call, unless it is an argument already.
-/

set_option autoImplicit false

namespace Recast.ClassExpr

open Recast.Text Recast.ClassExpr.Code

/-! ## Plain expressions -/

/-- An identifier of unaccented letters, digits and underscores. -/
def isPlain : List Char → Bool
  | [] => false
  | c :: cs => (c.isAlpha || c == '_') && cs.all fun c => c.isAlphanum || c == '_'

/-- A text in which a word stands by itself. -/
def HoldsWord (word cs : List Char) : Prop :=
  ∃ front back, cs = front ++ (word ++ back) ∧ front.getLast?.any isWord = false ∧ back.head?.any isWord = false

/-- An argument that calls nothing. -/
inductive Argument where
  | name (t : List Char)
  | text (t : List Char)
  deriving DecidableEq, Repr

/-- The argument is an identifier, or a string literal without quotes, backslashes, parentheses and dots that does
not name the class. -/
def Argument.Plain : Argument → Prop
  | name t => isPlain t = true
  | text t => (∀ c ∈ ['"', '\'', '\\', '(', ')', '.'], c ∉ t) ∧ ¬HoldsWord "className".toList t

/-- The class that callers pass, by the name that it has for a target. -/
def passedClass (target : Target) : List Char := if target = .vue then "props.class".toList else "className".toList

/-- An argument as it stands in the source. -/
def Argument.source : Argument → List Char
  | name t => t
  | text t => '"' :: (t ++ ['"'])

/-- An argument as it stands for a target. -/
def Argument.result (target : Target) : Argument → List Char
  | name t => if t = "className".toList then passedClass target else t
  | text t => if target = .vue then '\'' :: (t ++ ['\'']) else '"' :: (t ++ ['"'])

/-- An entry with its value as it stands for a target. -/
def entryFor (target : Target) (x : List Char) : List Char :=
  if target = .vue then x ++ ": props.".toList ++ x else x

/-- A variant call with entries. -/
def variantText (name : List Char) (entries : List (List Char)) : List Char :=
  if entries = [] then name ++ "()".toList
  else name ++ ("(\x7b ".toList ++ (joinChars ", ".toList entries ++ " \x7d)".toList))

/-- A merging call with arguments. -/
def mergeText (args : List (List Char)) : List Char :=
  mergeName ++ '(' :: (joinChars ", ".toList args ++ [')'])

/-! ## Names -/

section Name

variable {t : List Char}

theorem isWord_of_isPlain (plain : isPlain t = true) : ∀ c ∈ t, isWord c = true := by
  have word {c : Char} (h : (c.isAlphanum || c == '_') = true) : isWord c = true := by
    rcases Bool.or_eq_true_iff.mp h with alphanumeric | underscore
    · exact isWord_of_isAlphanum c (val_lt_of_isAlphanum alphanumeric) alphanumeric
    · rw [beq_iff_eq.mp underscore]
      decide
  cases t with
  | nil => cases plain
  | cons c t =>
    obtain ⟨first, others⟩ := Bool.and_eq_true_iff.mp plain
    refine List.forall_mem_cons.mpr ⟨word ?_, fun d member => word (List.all_eq_true.mp others d member)⟩
    rw [Bool.or_eq_true] at first ⊢
    exact first.imp_left fun letter => by simp [Char.isAlphanum, letter]

theorem joinsName_of_isPlain (plain : isPlain t = true) : ∀ c ∈ t, joinsName c = true := fun c member =>
  joinsName_of_isWord (isWord_of_isPlain plain c member)

theorem isName_of_isPlain (plain : isPlain t = true) : IsName t := by
  refine ⟨?_, List.all_eq_true.mpr (joinsName_of_isPlain plain)⟩
  rintro rfl
  cases plain

theorem isIdentifier_of_isPlain (plain : isPlain t = true) : isIdentifier t = true := by
  have words := isWord_of_isPlain plain
  cases t with
  | nil => cases plain
  | cons c t =>
    have first := (Bool.and_eq_true_iff.mp plain).1
    rw [isIdentifier, Bool.and_eq_true, Bool.or_eq_true]
    refine ⟨.inl first, List.all_eq_true.mpr fun d member => ?_⟩
    simp [continuesName, words d (by simp [member])]

theorem not_mem_of_isPlain (plain : isPlain t = true) {c : Char} (other : isWord c = false) : c ∉ t := fun member =>
  absurd (isWord_of_isPlain plain c member) (by simp [other])

theorem classToProps_eq_self (joined : ∀ c ∈ t, joinsName c = true)
    (apart : ∀ back, t = "className".toList ++ back → back.head?.any isWord = true) : classToProps t = t := by
  refine renameFrom_eq_self (by decide) fun front back same => ?_
  cases last : front.getLast? with
  | none =>
    obtain rfl := List.getLast?_eq_none_iff.mp last
    exact .inr (apart back same)
  | some c =>
    refine .inl ?_
    rw [lastOr, last]
    exact joined c (by rw [same]; exact List.mem_append_left _ (List.mem_of_getLast? last))

theorem classToProps_name (plain : isPlain t = true) (other : t ≠ "className".toList) : classToProps t = t := by
  refine classToProps_eq_self (joinsName_of_isPlain plain) fun back same => ?_
  cases back with
  | nil => exact absurd (by simpa using same) other
  | cons c back => exact isWord_of_isPlain plain c (by simp [same])

theorem classToProps_prop (plain : isPlain t = true) : classToProps ("props.".toList ++ t) = "props.".toList ++ t := by
  refine classToProps_eq_self (fun c member => ?_) fun back same => ?_
  · rcases List.mem_append.mp member with inSpace | inName
    · exact List.all_eq_true.mp (joinsName_propsSpace .vue) c inSpace
    · exact joinsName_of_isPlain plain c inName
  · exact absurd (List.cons.inj same).1 (by decide)

theorem classToProps_text (free : ¬HoldsWord "className".toList t) : classToProps t = t := by
  refine renameFrom_eq_self (by decide) fun front back same => ?_
  by_contra neither
  rw [not_or] at neither
  refine free ⟨front, back, same, ?_, by simpa using neither.2⟩
  cases last : front.getLast? with
  | none => rfl
  | some c =>
    by_contra word
    refine neither.1 ?_
    rw [lastOr, last]
    exact joinsName_of_isWord (by simpa using word)

/-- Text without a dot has no access to the props object. -/
theorem withoutAccess_eq_self (target : Target) (free : '.' ∉ t) : withoutAccess target t = t := by
  have nowhere {isJoined runsOn : Char → Bool} {old : List Char} (dot : '.' ∈ old) (front back : List Char)
      (same : t = front ++ (old ++ back)) :
      (lastOr none front).any isJoined = true ∨ back.head?.any runsOn = true :=
    absurd (by rw [same]; simp [dot]) free
  have props : stripPropsAccessChars t = t := by
    rw [stripPropsAccessChars_eq]
    exact renameFrom_eq_self (by decide) (nowhere (by decide))
  have className : replaceChars "props.className".toList "className".toList t = t := by
    rw [replaceChars_eq (by decide)]
    exact renameFrom_eq_self (by decide) (nowhere (by decide))
  rw [withoutAccess, className, ite_self, props]

end Name

/-! ## The code of a plain expression -/

def Argument.code : Argument → Code
  | name t => word t done
  | text t => literal '"' t done

def braced (entries : List Code) : Code := mark ' ' ((list entries).append (mark ' ' done))

/-- A variant call that takes an object of entries, or nothing if there are none. -/
def variantOf (name : List Char) (entries : List Code) : Code :=
  call name [] (if entries = [] then done else group .curly (braced entries) done) done

def shorthand (x : List Char) : Code := word x done

def mergeOf (before after : List Argument) (variant : Code) : Code :=
  call mergeName [] (list (before.map Argument.code ++ variant :: after.map Argument.code)) done

section Code

variable {name : List Char} {entries : List (List Char)} {before after : List Argument} {target : Target}

theorem chars_code (a : Argument) : a.code.chars = a.source := by
  cases a <;> simp [Argument.code, Argument.source, chars]

theorem chars_variantOf (es : List Code) : (variantOf name es).chars = variantText name (es.map chars) := by
  by_cases empty : es = []
  · simp [variantOf, variantText, empty, chars]
  · simp [variantOf, variantText, empty, braced, chars, chars_list, Bracket.opening, Bracket.closing]

theorem spelled_variantOf (f : List Char → List Char) (es : List Code) :
    (variantOf name es).spelled f = variantOf (f name) (es.map (spelled f)) := by
  by_cases empty : es = []
  · simp [variantOf, empty, spelled]
  · simp [variantOf, empty, braced, spelled, spelled_append, spelled_list]

theorem chars_mergeOf (variant : Code) :
    (mergeOf before after variant).chars =
      mergeText (before.map Argument.source ++ variant.chars :: after.map Argument.source) := by
  have sources (as : List Argument) : (as.map Argument.code).map chars = as.map Argument.source := by
    rw [List.map_map]
    exact List.map_congr_left fun a _ => chars_code a
  simp [mergeOf, mergeText, chars, chars_list, sources]

theorem arguments_braced (nonempty : entries ≠ []) :
    (braced (entries.map shorthand)).arguments = entries.map shorthand := by
  rw [braced, arguments_blank (by decide)]
  induction entries with
  | nil => exact absurd rfl nonempty
  | cons x entries ih =>
    cases entries with
    | nil => rfl
    | cons y entries =>
      have split : (list ((x :: y :: entries).map shorthand)).append (mark ' ' done) =
          (shorthand x).append (mark ',' (mark ' ' ((list ((y :: entries).map shorthand)).append (mark ' ' done)))) :=
        append_assoc _ _ _
      rw [split, arguments_append_comma, arguments_blank (by decide), ih (by simp)]
      rfl

/-! ### Resolved entries -/

theorem keyAndValue_shorthand {x : List Char} (plain : isPlain x = true) : (shorthand x).keyAndValue = (x, x) := by
  have whole : (shorthand x).chars = x := by simp [shorthand, chars]
  rw [keyAndValue, whole, argumentParts_free (not_mem_of_isPlain plain (by decide))
    (stripChars_eq_self_of_joinsName (joinsName_of_isPlain plain))]

theorem isClassEntry_shorthand {x : List Char} (plain : isPlain x = true) (other : x ≠ "class".toList) :
    (shorthand x).isClassEntry = decide (x = "className".toList) := by
  rw [isClassEntry, keyAndValue_shorthand plain, isClassArgument, Bool.eq_iff_iff, Bool.or_eq_true, beq_iff_eq,
    beq_iff_eq, decide_eq_true_iff]
  exact or_iff_left other

def entryOf (target : Target) (x : List Char) : Code :=
  if target = .vue then word x (mark ':' (mark ' ' (word ("props.".toList ++ x) done))) else word x done

theorem resolvedEntry_shorthand {x : List Char} (plain : isPlain x = true) :
    (shorthand x).resolvedEntry (propsSpace target) = entryOf target x := by
  have identifier := isIdentifier_of_isPlain plain
  have noColon : ':' ∉ x := not_mem_of_isPlain plain (by decide)
  rw [resolvedEntry, keyAndValue_shorthand plain]
  cases target with
  | svelte => simp [propsSpace, entryOf, identifier]
  | vue => simp [propsSpace, entryOf, identifier, shorthand, chars, noColon, prefixed, append]

theorem kept_braced (nonempty : entries ≠ []) (plain : ∀ x ∈ entries, isPlain x = true ∧ x ≠ "class".toList) :
    (braced (entries.map shorthand)).kept = (entries.filter (· ≠ "className".toList)).map shorthand := by
  rw [kept, arguments_braced nonempty, List.filter_map]
  refine congrArg (List.map shorthand) (List.filter_congr fun x member => ?_)
  rw [Function.comp, isClassEntry_shorthand (plain x member).1 (plain x member).2, decide_not]

theorem dropsClass_braced (nonempty : entries ≠ []) (plain : ∀ x ∈ entries, isPlain x = true ∧ x ≠ "class".toList) :
    (braced (entries.map shorthand)).dropsClass = decide ("className".toList ∈ entries) := by
  rw [dropsClass, arguments_braced nonempty, List.any_map, Bool.eq_iff_iff, List.any_eq_true, decide_eq_true_iff]
  constructor
  · rintro ⟨x, member, entry⟩
    rw [Function.comp, isClassEntry_shorthand (plain x member).1 (plain x member).2, decide_eq_true_iff] at entry
    exact entry ▸ member
  · intro member
    refine ⟨_, member, ?_⟩
    rw [Function.comp, isClassEntry_shorthand (plain _ member).1 (plain _ member).2, decide_eq_true_iff]

theorem call_variantInside (nonempty : entries ≠ []) (plain : ∀ x ∈ entries, isPlain x = true ∧ x ≠ "class".toList) :
    call name [] ((braced (entries.map shorthand)).variantInside (propsSpace target)) done =
      variantOf name ((entries.filter (· ≠ "className".toList)).map (entryOf target)) := by
  have resolved : (braced (entries.map shorthand)).kept.map (resolvedEntry (propsSpace target)) =
      (entries.filter (· ≠ "className".toList)).map (entryOf target) := by
    rw [kept_braced nonempty plain, List.map_map]
    refine List.map_congr_left fun x member => ?_
    exact resolvedEntry_shorthand (plain x (List.mem_of_mem_filter member)).1
  rw [variantInside, resolved, variantOf]
  cases (entries.filter (· ≠ "className".toList)).map (entryOf target) with
  | nil => rfl
  | cons => rfl

/-! ### What adapting needs -/

theorem forall_mem_around {α : Type} {f : Argument → α} {v : α} {Q : α → Prop}
    (args : ∀ a ∈ before ++ after, Q (f a)) (here : Q v) : ∀ x ∈ before.map f ++ v :: after.map f, Q x := by
  intro x member
  rcases List.mem_append.mp member with front | behind
  · obtain ⟨a, inBefore, rfl⟩ := List.mem_map.mp front
    exact args a (List.mem_append_left _ inBefore)
  · rcases List.mem_cons.mp behind with rfl | back
    · exact here
    · obtain ⟨a, inAfter, rfl⟩ := List.mem_map.mp back
      exact args a (List.mem_append_right _ inAfter)

theorem closes_of_not_mem {q : Char} {t : List Char} (free : q ∉ t) (unescaped : '\\' ∉ t) : closes q t = true := by
  fun_induction closes q t with
  | case1 => rfl
  | case2 c cs ih => exact absurd List.mem_cons_self unescaped
  | case3 c cs _ ih =>
    simp only [List.mem_cons, not_or] at free unescaped
    simp [Ne.symm free.1, Ne.symm unescaped.1, ih free.2 unescaped.2]

theorem findCall?_eq_none_of_not_mem {t : List Char} (free : '(' ∉ t) (name : List Char) :
    findCall? name t 0 = none := by
  by_contra found
  obtain ⟨start, found⟩ := Option.ne_none_iff_exists'.mp found
  rw [findCall?, List.drop_zero] at found
  obtain ⟨front, back, rfl, -, starts, -⟩ := findCallIn?_eq_some found
  obtain ⟨blanks, behind, rfl, -⟩ := startsCall_iff.mp starts
  exact free (by simp)

theorem formed_code {a : Argument} (plain : a.Plain) : a.code.Formed (Inert name) := by
  cases a with
  | name t => exact ⟨isName_of_isPlain plain, rfl, trivial⟩
  | text t =>
    obtain ⟨free, -⟩ := plain
    have opening : '(' ∉ t := free '(' (by simp)
    have last : t.getLast? ≠ some '\\' := fun last => free '\\' (by simp) (List.mem_of_getLast? last)
    have closed : Closed '"' t := ⟨rfl, closes_of_not_mem (free '"' (by simp)) (free '\\' (by simp)), last⟩
    exact ⟨⟨closed, findCall?_eq_none_of_not_mem opening name, findCall?_eq_none_of_not_mem opening mergeName⟩, trivial⟩

theorem formed_variantOf {P : Char → List Char → Prop} {es : List Code} (isName : IsName name)
    (formed : ∀ e ∈ es, e.Formed P) : (variantOf name es).Formed P := by
  refine ⟨isName, rfl, ?_, trivial⟩
  split
  · trivial
  · exact ⟨⟨by decide, by decide, formed_append (formed_list formed) ⟨by decide, by decide, trivial⟩ rfl⟩, trivial⟩

theorem formed_mergeOf {P : Char → List Char → Prop} {variant : Code} (args : ∀ a ∈ before ++ after, a.code.Formed P)
    (formed : variant.Formed P) : (mergeOf before after variant).Formed P :=
  ⟨isName_mergeName, rfl, formed_list (forall_mem_around args formed), trivial⟩

theorem not_mem_joinChars {c : Char} {sep : List Char} {parts : List (List Char)} (noSep : c ∉ sep)
    (none : ∀ part ∈ parts, c ∉ part) : c ∉ joinChars sep parts := by
  induction parts with
  | nil => simp [joinChars]
  | cons part parts ih =>
    have here := none part (by simp)
    have later := ih fun x member => none x (by simp [member])
    cases parts with
    | nil => exact here
    | cons => simp [joinChars, here, noSep, later]

theorem formed_mono {P Q : Char → List Char → Prop} (weaker : ∀ q t, P q t → Q q t) {e : Code} (formed : e.Formed P) :
    e.Formed Q := by
  induction e with
  | done => trivial
  | word t rest ih => exact ⟨formed.1, formed.2.1, ih formed.2.2⟩
  | call t gap inside rest ihInside ih => exact ⟨formed.1, formed.2.1, ihInside formed.2.2.1, ih formed.2.2.2⟩
  | group b inside rest ihInside ih => exact ⟨ihInside formed.1, ih formed.2⟩
  | literal q t rest ih => exact ⟨weaker q t formed.1, ih formed.2⟩
  | mark c rest ih => exact ⟨formed.1, formed.2.1, ih formed.2.2⟩

theorem keyed_shorthand {x : List Char} (plain : isPlain x = true) : (shorthand x).Keyed := by
  refine ⟨rfl, fun last => ?_⟩
  have member : ':' ∈ x := by simpa [shorthand, chars] using List.mem_of_getLast? last
  exact not_mem_of_isPlain plain (by decide) member

theorem objects_variantOf (nonempty : entries ≠ []) (plain : ∀ x ∈ entries, isPlain x = true) :
    (variantOf name (entries.map shorthand)).Objects name := by
  have object : (group .curly (braced (entries.map shorthand)) done).object? = some (braced (entries.map shorthand)) :=
    rfl
  rw [variantOf, if_neg (by simpa using nonempty), Objects, if_pos rfl, object]
  refine ⟨fun entry member => ?_, trivial⟩
  rw [arguments_braced nonempty] at member
  obtain ⟨x, inEntries, rfl⟩ := List.mem_map.mp member
  exact keyed_shorthand (plain x inEntries)

/-- The dot that access to the props object has stands nowhere. -/
theorem dot_not_mem (named : isPlain name = true) (args : ∀ a ∈ before ++ after, a.Plain)
    (plain : ∀ x ∈ entries, isPlain x = true) :
    '.' ∉ (mergeOf before after (variantOf name (entries.map shorthand))).chars := by
  have inName : '.' ∉ name := not_mem_of_isPlain named (by decide)
  have inEntries : '.' ∉ joinChars ", ".toList entries :=
    not_mem_joinChars (by decide) fun x member => not_mem_of_isPlain (plain x member) (by decide)
  have source (a : Argument) (h : a.Plain) : '.' ∉ a.source := by
    cases a with
    | name t => exact not_mem_of_isPlain h (by decide)
    | text t => simpa [Argument.source] using h.1 '.' (by simp)
  have inVariant : '.' ∉ variantText name entries := by
    rw [variantText]
    split
    · simp [inName]
    · generalize joinChars ", ".toList entries = names at inEntries ⊢
      simp [inName, inEntries]
  have same : (entries.map shorthand).map chars = entries := by simp [Function.comp_def, shorthand, chars]
  rw [chars_mergeOf, chars_variantOf, same, mergeText]
  have inArguments : '.' ∉ joinChars ", ".toList
      (before.map Argument.source ++ variantText name entries :: after.map Argument.source) :=
    not_mem_joinChars (by decide) (forall_mem_around (fun a member => source a (args a member)) inVariant)
  generalize joinChars ", ".toList _ = arguments at inArguments ⊢
  simp [inArguments, mergeName]

theorem localized_mergeOf (named : isPlain name = true) (args : ∀ a ∈ before ++ after, a.Plain)
    (plain : ∀ x ∈ entries, isPlain x = true) :
    (mergeOf before after (variantOf name (entries.map shorthand))).localized target =
      mergeOf before after (variantOf name (entries.map shorthand)) :=
  spelled_eq_self fun _ sub => withoutAccess_eq_self target fun member => dot_not_mem named args plain (sub member)

theorem adaptable_mergeOf (named : isPlain name = true) (noMerge : name ≠ mergeName)
    (args : ∀ a ∈ before ++ after, a.Plain) (nonempty : entries ≠ []) (plain : ∀ x ∈ entries, isPlain x = true) :
    (mergeOf before after (variantOf name (entries.map shorthand))).Adaptable target name := by
  have inert : (mergeOf before after (variantOf name (entries.map shorthand))).Formed (Inert name) := by
    refine formed_mergeOf (fun a member => formed_code (args a member)) (formed_variantOf (isName_of_isPlain named) ?_)
    intro e member
    obtain ⟨x, inEntries, rfl⟩ := List.mem_map.mp member
    exact ⟨isName_of_isPlain (plain x inEntries), rfl, trivial⟩
  have code (a : Argument) : a.code.Objects name := by cases a <;> trivial
  refine ⟨isName_of_isPlain named, noMerge, formed_mono (fun _ _ => Inert.closed) inert, ?_, ?_⟩
  · rwa [localized_mergeOf named args plain]
  · rw [localized_mergeOf named args plain, mergeOf, Objects, if_neg (Ne.symm noMerge)]
    exact ⟨objects_list (forall_mem_around (fun a _ => code a) (objects_variantOf nonempty plain)), trivial⟩

/-! ### The adapted code -/

theorem moved_variantOf (nonempty : entries ≠ []) (plain : ∀ x ∈ entries, isPlain x = true ∧ x ≠ "class".toList) :
    (variantOf name (entries.map shorthand)).moved name (propsSpace target) true =
      (variantOf name ((entries.filter (· ≠ "className".toList)).map (entryOf target)),
        decide ("className".toList ∈ entries)) := by
  have object : (group .curly (braced (entries.map shorthand)) done).object? = some (braced (entries.map shorthand)) :=
    rfl
  rw [← call_variantInside nonempty plain, ← dropsClass_braced nonempty plain, variantOf,
    if_neg (by simpa using nonempty), moved, if_pos rfl, object]
  dsimp only [moved]
  rw [variantCall, if_pos rfl]
  split <;> simp_all

theorem arguments_code (a : Argument) : a.code.arguments = [a.code] := by cases a <;> rfl

theorem code_eq_classWord_iff {a : Argument} : a.code = classWord ↔ a = .name "className".toList := by
  cases a <;> simp [Argument.code, classWord]

/-- In the merging call the class is the last argument, unless it is one already or was no entry. -/
theorem adapted_mergeOf (named : isPlain name = true) (noMerge : name ≠ mergeName)
    (args : ∀ a ∈ before ++ after, a.Plain) (nonempty : entries ≠ [])
    (plain : ∀ x ∈ entries, isPlain x = true ∧ x ≠ "class".toList) :
    (mergeOf before after (variantOf name (entries.map shorthand))).adapted target name =
      call mergeName [] (list (before.map Argument.code ++
        variantOf name ((entries.filter (· ≠ "className".toList)).map (entryOf target)) ::
          (after.map Argument.code ++
            if "className".toList ∈ entries ∧ Argument.name "className".toList ∉ before ++ after then [classWord]
            else []))) done := by
  have still (as : List Argument) : (as.map Argument.code).map (fun e => (e.moved name (propsSpace target) true).1) =
      as.map Argument.code := by
    rw [List.map_map]
    exact List.map_congr_left fun a _ => by cases a <;> rfl
  have passes (as : List Argument) :
      (as.map Argument.code).any (fun e => (e.moved name (propsSpace target) true).2) = false := by
    rw [List.any_map, List.any_eq_false]
    intro a _
    cases a <;> exact Bool.false_ne_true
  have within : (list (before.map Argument.code ++ variantOf name (entries.map shorthand) ::
      after.map Argument.code)).moved name (propsSpace target) true = _ := moved_list _
  rw [List.map_append, List.map_cons, still, still, List.any_append, List.any_cons, passes, passes,
    moved_variantOf nonempty plain, Bool.false_or, Bool.or_false] at within
  rw [adapted, localized_mergeOf named args fun x member => (plain x member).1, mergeOf, moved,
    if_neg (Ne.symm noMerge), decide_eq_true rfl, Bool.or_true, within, otherCall, if_pos rfl, passOn]
  dsimp only [moved]
  generalize (entries.filter (· ≠ "className".toList)).map (entryOf target) = kept
  have present : classWord ∈ before.map Argument.code ++ variantOf name kept :: after.map Argument.code ↔
      Argument.name "className".toList ∈ before ++ after := by
    have other : classWord ≠ variantOf name kept := fun same => by cases same
    simp only [List.mem_append, List.mem_cons, List.mem_map, code_eq_classWord_iff, exists_eq_right, other, false_or]
  have single : ∀ e ∈ before.map Argument.code ++ variantOf name kept :: after.map Argument.code, e.arguments = [e] :=
    forall_mem_around (fun a _ => arguments_code a) rfl
  by_cases entry : "className".toList ∈ entries
  · rw [decide_eq_true entry, if_pos rfl, withClass_list (by simp) single, List.append_assoc, List.cons_append]
    by_cases argument : Argument.name "className".toList ∈ before ++ after
    · rw [if_pos (present.mpr argument), if_neg fun both => both.2 argument]
    · rw [if_neg (mt present.mp argument), if_pos ⟨entry, argument⟩]
  · rw [decide_eq_false entry, if_neg Bool.false_ne_true, if_neg fun both => entry both.1, List.append_nil]

/-! ### The written text -/

/-- What code is written as for a target, where the class has the name it has there. -/
def WrittenFor : Target → Code → List Char → Prop
  | .svelte, e, text => e.chars = text
  | .vue, e, text => WrittenAs (e.spelled classToProps).chars text

theorem written_call {es : List Code} {texts : List (List Char)} (each : List.Forall₂ (WrittenFor target) es texts) :
    (call mergeName [] (list es) done).written target = mergeText texts := by
  cases target with
  | svelte =>
    have same : es.map chars = texts := by
      induction each with
      | nil => rfl
      | cons here _ ih => rw [List.map_cons, here, ih]
    simp [written, chars, chars_list, same, mergeText]
  | vue =>
    have merge : classToProps mergeName = mergeName := by decide
    have inside : List.Forall₂ WrittenAs ((es.map (spelled classToProps)).map chars) texts := by
      rw [List.map_map, List.forall₂_map_left_iff]
      exact each
    have opening : WrittenAs (mergeName ++ ['(']) (mergeName ++ ['(']) := .plain (by decide)
    have closing : WrittenAs [')'] [')'] := .plain (by decide)
    have whole := ((opening.append (WrittenAs.joinChars inside)).append closing).eq
    rw [written, if_pos rfl, spelled, merge, spelled_list, spelled, chars, chars_list, mergeText]
    simpa [chars] using whole

theorem plain_of_isPlain {t : List Char} (plain : isPlain t = true) : '"' ∉ t ∧ '\'' ∉ t :=
  ⟨not_mem_of_isPlain plain (by decide), not_mem_of_isPlain plain (by decide)⟩

theorem writtenFor_code {a : Argument} (plain : a.Plain) : WrittenFor target a.code (a.result target) := by
  cases target with
  | svelte =>
    refine (chars_code a).trans ?_
    cases a with
    | name t =>
      rw [Argument.source, Argument.result]
      split
      · assumption
      · rfl
    | text t => rfl
  | vue =>
    cases a with
    | name t =>
      have whole : ((Argument.name t).code.spelled classToProps).chars = classToProps t := by
        simp [Argument.code, spelled, chars]
      rw [WrittenFor, whole, Argument.result]
      split
      · rename_i same
        rw [same]
        exact .plain (by decide)
      · rename_i other
        rw [classToProps_name plain other]
        exact .plain (plain_of_isPlain plain)
    | text t =>
      obtain ⟨free, noClass⟩ := plain
      have whole : ((Argument.text t).code.spelled classToProps).chars = '"' :: (t ++ ['"']) := by
        simp [Argument.code, spelled, chars, classToProps_text noClass]
      rw [WrittenFor, whole]
      exact .literal ⟨free '"' (by simp), free '\'' (by simp)⟩ (free '\\' (by simp))

theorem writtenFor_classWord : WrittenFor target classWord (passedClass target) := by
  cases target with
  | svelte => rfl
  | vue => exact .plain (by decide)

theorem chars_entryOf (x : List Char) : (entryOf target x).chars = entryFor target x := by
  cases target <;> simp [entryOf, entryFor, chars]

theorem spelled_entryOf {x : List Char} (plain : isPlain x = true) (other : x ≠ "className".toList) :
    (entryOf .vue x).spelled classToProps = entryOf .vue x := by
  rw [entryOf, if_pos rfl, spelled, spelled, spelled, spelled, classToProps_name plain other, classToProps_prop plain]
  rfl

theorem writtenFor_variantOf {kept : List (List Char)} (named : isPlain name = true)
    (noClass : name ≠ "className".toList) (plain : ∀ x ∈ kept, isPlain x = true ∧ x ≠ "className".toList) :
    WrittenFor target (variantOf name (kept.map (entryOf target))) (variantText name (kept.map (entryFor target))) := by
  have text : (kept.map (entryOf target)).map chars = kept.map (entryFor target) := by
    rw [List.map_map]
    exact List.map_congr_left fun x _ => chars_entryOf x
  cases target with
  | svelte => rw [WrittenFor, chars_variantOf, text]
  | vue =>
    have stays : (kept.map (entryOf .vue)).map (spelled classToProps) = kept.map (entryOf .vue) := by
      rw [List.map_map]
      exact List.map_congr_left fun x member => spelled_entryOf (plain x member).1 (plain x member).2
    have entries : WrittenAs (joinChars ", ".toList (kept.map (entryFor .vue)))
        (joinChars ", ".toList (kept.map (entryFor .vue))) := by
      refine .joinChars (List.forall₂_same.mpr fun text member => ?_)
      obtain ⟨x, inKept, rfl⟩ := List.mem_map.mp member
      have quotes := plain_of_isPlain (plain x inKept).1
      exact ((WrittenAs.plain quotes).append (.plain (by decide))).append (.plain quotes)
    have opening : WrittenAs name name := .plain (plain_of_isPlain named)
    rw [WrittenFor, spelled_variantOf, classToProps_name named noClass, stays, chars_variantOf, text, variantText]
    split
    · exact opening.append (.plain (by decide))
    · exact opening.append ((WrittenAs.plain (by decide)).append (entries.append (.plain (by decide))))

theorem stripChars_mergeText (args : List (List Char)) : stripChars (mergeText args) = mergeText args := by
  rw [stripChars, trimWhile_eq_self_iff, dropWhile_eq_self_iff_head, dropEndWhile_eq_self_iff_getLast]
  have whole : mergeText args = (mergeName ++ '(' :: joinChars ", ".toList args) ++ [')'] := by simp [mergeText]
  refine ⟨show isBlank 'c' = false by decide, ?_⟩
  rw [whole, List.getLast?_concat]
  exact show isBlank ')' = false by decide

/-- A class expression that merges names, string literals and one variant call of an object of names, adapted to a
target: the class is taken out of the object and is the last argument of the merging call, unless it is one
already. For Vue each entry has its value in the props, the class its name there, and literals single quotes. -/
theorem adapt_merged_names (target : Target) (named : isPlain name = true) (noMerge : name ≠ mergeName)
    (noClass : name ≠ "className".toList) (args : ∀ a ∈ before ++ after, a.Plain) (nonempty : entries ≠ [])
    (plain : ∀ x ∈ entries, isPlain x = true ∧ x ≠ "class".toList) :
    adapt
        (String.ofList (mergeText
          (before.map Argument.source ++ variantText name entries :: after.map Argument.source)))
        target (some (String.ofList name)) =
      String.ofList (mergeText
        (before.map (Argument.result target) ++
          variantText name ((entries.filter (· ≠ "className".toList)).map (entryFor target)) ::
            (after.map (Argument.result target) ++
              if "className".toList ∈ entries ∧ Argument.name "className".toList ∉ before ++ after then
                [passedClass target]
              else []))) := by
  have names : (entries.map shorthand).map chars = entries := by simp [Function.comp_def, shorthand, chars]
  have text : (mergeOf before after (variantOf name (entries.map shorthand))).chars = _ := chars_mergeOf _
  rw [chars_variantOf, names] at text
  have adaptable : (mergeOf before after (variantOf name (entries.map shorthand))).Adaptable target
      (String.ofList name).toList := by
    rw [String.toList_ofList]
    exact adaptable_mergeOf named noMerge args nonempty fun x member => (plain x member).1
  have stripped : stripChars (String.ofList (mergeText (before.map Argument.source ++
      variantText name entries :: after.map Argument.source))).toList =
        (mergeOf before after (variantOf name (entries.map shorthand))).chars := by
    rw [String.toList_ofList, stripChars_mergeText, text]
  rw [adapt_chars stripped adaptable, String.toList_ofList, adapted_mergeOf named noMerge args nonempty plain,
    written_call]
  have arguments (as : List Argument) (each : ∀ a ∈ as, a.Plain) :
      List.Forall₂ (WrittenFor target) (as.map Argument.code) (as.map (Argument.result target)) := by
    rw [List.forall₂_map_left_iff, List.forall₂_map_right_iff, List.forall₂_same]
    exact fun a member => writtenFor_code (each a member)
  refine List.rel_append (arguments before fun a member => args a (List.mem_append_left _ member)) (.cons ?_ ?_)
  · refine writtenFor_variantOf named noClass fun x member => ?_
    obtain ⟨inEntries, other⟩ := List.mem_filter.mp member
    exact ⟨(plain x inEntries).1, of_decide_eq_true other⟩
  · refine List.rel_append (arguments after fun a member => args a (List.mem_append_right _ member)) ?_
    split
    · exact .cons writtenFor_classWord .nil
    · exact .nil

theorem adapt_merged_names_button :
    adapt "cn(\"base\", buttonVariants(\x7b variant, className \x7d), extra)" .vue (some "buttonVariants") =
      "cn('base', buttonVariants(\x7b variant: props.variant \x7d), extra, props.class)" := by
  have text : (Argument.text "base".toList).Plain := by
    refine ⟨by simp, ?_⟩
    rintro ⟨front, back, same, -, -⟩
    have lengths := congrArg List.length same
    simp at lengths
    omega
  have args : ∀ a ∈ [Argument.text "base".toList] ++ [Argument.name "extra".toList], a.Plain := by
    intro a member
    rcases List.mem_cons.mp member with rfl | later
    · exact text
    · rw [List.mem_singleton.mp later]
      exact show isPlain "extra".toList = true by decide
  have whole := @adapt_merged_names "buttonVariants".toList ["variant".toList, "className".toList]
    [.text "base".toList] [.name "extra".toList] .vue (by decide) (by decide) (by decide) args (by decide) (by decide)
  have source : String.ofList (mergeText ([Argument.text "base".toList].map Argument.source ++
      variantText "buttonVariants".toList ["variant".toList, "className".toList] ::
        [Argument.name "extra".toList].map Argument.source)) =
      "cn(\"base\", buttonVariants(\x7b variant, className \x7d), extra)" := by decide +kernel
  rw [source] at whole
  refine whole.trans ?_
  decide +kernel

end Code

end Recast.ClassExpr
