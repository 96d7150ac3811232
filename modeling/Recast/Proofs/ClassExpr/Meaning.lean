import Recast.Proofs.ClassExpr.Adapted
import Recast.Proofs.ClassExpr.Requote

/-!
# What becomes of the entries of a variant call

An entry of the object that a variant call takes is a member or a spread. Resolving the call keeps the meaning of
an entry or, in Vue, takes the value of a member from the props of the component, as it should for a value that
is a bare prop. It does so for every identifier, and it makes a member of a spread. The value of a class entry
gets lost unless it is the class that callers pass.
-/

set_option autoImplicit false

namespace Recast.ClassExpr

open Recast.Text Recast.ClassExpr.Code

/-! ## Meaning -/

/-- What an entry of an object says. Of a spread, what stands in front of its first colon and behind it. -/
inductive Meaning where
  | spread (front : List Char) (behind : Option (List Char))
  | member (key value : List Char)
  deriving DecidableEq, Repr

def isSpread (entry : List Char) : Bool := (after? "...".toList entry).isSome

/-- The meaning of an entry by what stands in front of its first colon and behind it. -/
def Meaning.of (front : List Char) (behind : Option (List Char)) : Meaning :=
  if isSpread front then .spread front behind else .member front (behind.getD front)

/-- The meaning of an entry, where a name alone is its own value. -/
def meaning (entry : List Char) : Meaning :=
  match cut? [':'] entry with
  | some (front, behind) => .of (stripChars front) (some (stripChars behind))
  | none => .of (stripChars entry) none

/-- A meaning stays, except that for Vue the value of a member is taken from the props if it is a bare prop. -/
def Meaning.Keeps (target : Target) (isProp : List Char → Bool) (before after : Meaning) : Prop :=
  after = before ∨
    target = .vue ∧ ∃ key value, before = .member key value ∧ isProp value = true ∧
      after = .member key ("props.".toList ++ value)

/-- An entry says what it did, up to access to the props of a Vue component. -/
def Kept (target : Target) (isProp : List Char → Bool) (before after : List Char) : Prop :=
  (meaning before).Keeps target isProp (meaning after)

/-- Every merging call that is passed the class has a text among its arguments. -/
def Passed (value : List Char) : Prop := ∀ args : Code, value ∈ args.withClass.arguments.map Code.chars

theorem meaning_cut {front : List Char} (free : ':' ∉ front) (behind : List Char) :
    meaning (front ++ ':' :: behind) = .of (stripChars front) (some (stripChars behind)) := by
  rw [meaning, cut?_singleton_append free]

theorem meaning_free {entry : List Char} (free : ':' ∉ entry) : meaning entry = .of (stripChars entry) none := by
  have nothing : cut? [':'] entry = none := by
    have whole := cut?_append_of_not_mem (p := []) free []
    rwa [List.append_nil] at whole
  rw [meaning, nothing]

theorem stripChars_stripChars (cs : List Char) : stripChars (stripChars cs) = stripChars cs :=
  trimWhile_trimWhile isBlank cs

theorem mem_of_mem_stripChars {c : Char} {cs : List Char} (member : c ∈ stripChars cs) : c ∈ cs :=
  (List.dropWhile_suffix isBlank).subset ((List.rdropWhile_prefix isBlank _).subset member)

/-- Key and value of an entry are what the meaning is made of. -/
theorem meaning_argumentParts {entry : List Char} (trimmed : stripChars entry = entry)
    (last : entry.getLast? ≠ some ':') :
    ∃ behind, meaning entry = .of (argumentParts entry).1 behind ∧
      behind.getD (argumentParts entry).1 = (argumentParts entry).2 ∧ (behind.isSome = true ↔ ':' ∈ entry) := by
  by_cases colon : ':' ∈ entry
  · obtain ⟨front, behind, rfl, free⟩ := List.eq_append_cons_of_mem colon
    have nonempty : stripChars behind ≠ [] := by
      obtain ⟨behind, c, rfl⟩ := (List.eq_nil_or_concat' behind).resolve_left (by rintro rfl; exact last (by simp))
      have solid : isBlank c = false := by
        have back := dropEndWhile_eq_self_iff_getLast.mp (trimWhile_eq_self_iff.mp trimmed).2
        have whole : front ++ ':' :: (behind ++ [c]) = (front ++ ':' :: behind) ++ [c] := by simp
        rwa [whole, List.getLast?_concat] at back
      have start : (behind ++ [c]).dropWhile isBlank = behind.dropWhile isBlank ++ [c] := by
        simp [List.dropWhile_append, solid]
      rw [stripChars, trimWhile, start, dropEndWhile_append_singleton_of_neg solid]
      simp
    refine ⟨some (stripChars behind), ?_, ?_, by simp [colon]⟩
    · rw [meaning_cut free, argumentParts, List.takeWhile_append_of_pos (forall_ne_colon free)]
      simp
    · rw [argumentParts, List.takeWhile_append_of_pos (forall_ne_colon free),
        List.dropWhile_append_of_pos (forall_ne_colon free)]
      simp [nonempty]
  · refine ⟨none, ?_, ?_, by simp [colon]⟩
    · rw [meaning_free colon, argumentParts_free colon trimmed, trimmed]
    · rw [argumentParts_free colon trimmed]
      rfl

theorem argumentParts_trimmed (entry : List Char) :
    stripChars (argumentParts entry).1 = (argumentParts entry).1 ∧
      stripChars (argumentParts entry).2 = (argumentParts entry).2 ∧ ':' ∉ (argumentParts entry).1 := by
  have key : stripChars (argumentParts entry).1 = (argumentParts entry).1 := stripChars_stripChars _
  refine ⟨key, ?_, fun member => ?_⟩
  · rw [argumentParts] at key ⊢
    dsimp only at key ⊢
    split
    · exact key
    · exact stripChars_stripChars _
  · have front := List.mem_takeWhile_imp (mem_of_mem_stripChars member)
    simp at front

theorem isSpread_eq_false_of_isIdentifier {value : List Char} (identifier : isIdentifier value = true) :
    isSpread value = false := by
  cases value with
  | nil => cases identifier
  | cons c value =>
    have other : '.' ≠ c := by
      rintro rfl
      simp [isIdentifier] at identifier
    simp [isSpread, after?, other]

theorem stripChars_spaced {space value : List Char} (joined : space.all joinsName = true)
    (trimmed : stripChars value = value) : stripChars (spaced space value) = spaced space value := by
  rw [spaced]
  split
  · rename_i identifier
    refine stripChars_eq_self_of_joinsName fun c member => ?_
    rcases List.mem_append.mp member with inSpace | inValue
    · exact List.all_eq_true.mp joined c inSpace
    · exact joinsName_of_isIdentifier identifier c inValue
  · exact trimmed

theorem spaced_propsSpace_eq_iff (target : Target) (value : List Char) :
    spaced (propsSpace target) value = value ↔ (target = .vue → isIdentifier value = false) := by
  cases target with
  | svelte => simp [propsSpace]
  | vue =>
    have longer : "props.".toList ++ value ≠ value := mt List.append_left_eq_self.mp (by decide)
    cases identifier : isIdentifier value with
    | true => simpa [propsSpace, spaced, identifier] using longer
    | false => simp [spaced, identifier]

/-- A value that is resolved behind its key keeps the meaning of the entry exactly if that has a colon or is no
spread, and its value is not made a prop without being one. -/
theorem keeps_spaced_iff {target : Target} {isProp : List Char → Bool} {key value : List Char}
    {behind : Option (List Char)} (value_eq : behind.getD key = value) :
    (Meaning.of key behind).Keeps target isProp (.of key (some (spaced (propsSpace target) value))) ↔
      (isSpread key = true → behind.isSome = true) ∧
        (target = .vue → isIdentifier value = true → isSpread key = false ∧ isProp value = true) := by
  have differs := spaced_propsSpace_eq_iff target value
  rw [Meaning.Keeps]
  cases spread : isSpread key with
  | true =>
    have front (behind : Option (List Char)) : Meaning.of key behind = .spread key behind := by
      simp [Meaning.of, spread]
    rw [front, front]
    cases behind with
    | none => simp
    | some behind =>
      obtain rfl : behind = value := value_eq
      simp [differs]
  | false =>
    have pair (behind : Option (List Char)) : Meaning.of key behind = .member key (behind.getD key) := by
      simp [Meaning.of, spread]
    rw [pair, pair, value_eq]
    cases target with
    | svelte => simp [propsSpace]
    | vue =>
      cases identifier : isIdentifier value with
      | true =>
        have prefixed : spaced (propsSpace .vue) value = "props.".toList ++ value := if_pos identifier
        have other : "props.".toList ++ value ≠ value := prefixed ▸ mt differs.mp (by simp [identifier])
        rw [prefixed]
        simp only [Option.getD_some, Meaning.member.injEq, true_and, other, false_or]
        simp
      | false => simp [differs, identifier]

theorem meaning_pair {key value : List Char} (target : Target) (free : ':' ∉ key) (keyTrimmed : stripChars key = key)
    (valueTrimmed : stripChars value = value) :
    meaning (key ++ (": ".toList ++ spaced (propsSpace target) value)) =
      .of key (some (spaced (propsSpace target) value)) := by
  have whole : ": ".toList ++ spaced (propsSpace target) value = ':' :: ' ' :: spaced (propsSpace target) value := rfl
  have blank : stripChars (' ' :: spaced (propsSpace target) value) =
      stripChars (spaced (propsSpace target) value) := by
    rw [stripChars, trimWhile, List.dropWhile_cons_of_pos (by decide)]
    rfl
  rw [whole, meaning_cut free, keyTrimmed, blank, stripChars_spaced (joinsName_propsSpace target) valueTrimmed]

/-- A resolved entry is kept exactly if it is no spread without a colon and its value is not made a prop without
being one. -/
theorem kept_iff {target : Target} {isProp : List Char → Bool} {entry : List Char} (trimmed : stripChars entry = entry)
    (last : entry.getLast? ≠ some ':') :
    Kept target isProp entry
        (resolvedArgument (propsSpace target) (argumentParts entry).1 (argumentParts entry).2) ↔
      (isSpread (argumentParts entry).1 = true → ':' ∈ entry) ∧
        (target = .vue → isIdentifier (argumentParts entry).2 = true →
          isSpread (argumentParts entry).1 = false ∧ isProp (argumentParts entry).2 = true) := by
  obtain ⟨behind, before, value_eq, colon⟩ := meaning_argumentParts trimmed last
  obtain ⟨keyTrimmed, valueTrimmed, free⟩ := argumentParts_trimmed entry
  generalize (argumentParts entry).1 = key at *
  generalize (argumentParts entry).2 = value at *
  rw [Kept, before, resolvedArgument_eq, ← colon]
  split
  · -- a shorthand stays one, so its value is no spread, and the target is not Vue
    rename_i bare
    obtain ⟨identifier, noSpace, rfl⟩ := bare
    have single := isSpread_eq_false_of_isIdentifier identifier
    have svelte : target ≠ .vue := by
      rintro rfl
      exact absurd noSpace (by decide)
    have same : Meaning.of key none = .of key behind := by
      rw [Meaning.of, Meaning.of, single, value_eq]
      rfl
    rw [meaning_free free, keyTrimmed, same]
    simp [Meaning.Keeps, single, svelte]
  · rw [meaning_pair target free keyTrimmed valueTrimmed]
    exact keeps_spaced_iff value_eq

/-! ## The class -/

/-- Only the class that callers pass is passed to a merging call. -/
theorem passed_iff (value : List Char) : Passed value ↔ value = "className".toList := by
  constructor
  · intro passed
    have alone := passed done
    rw [arguments_withClass] at alone
    simpa [arguments, parts, trim, trimStart, trimEnd, classWord, chars] using alone
  · rintro rfl args
    refine List.mem_map.mpr ⟨classWord, ?_, rfl⟩
    rw [arguments_withClass]
    split
    · assumption
    · simp

/-! ## Entries of code -/

namespace Code

/-- The objects that the variant calls of code take. -/
def objects (name : List Char) : Code → List Code
  | done => []
  | word _ rest => rest.objects name
  | call t _ inside rest => (if t = name then inside.object?.toList else inside.objects name) ++ rest.objects name
  | group _ inside rest => inside.objects name ++ rest.objects name
  | literal _ _ rest => rest.objects name
  | mark _ rest => rest.objects name

theorem keyed_of_mem_objects {P : Char → List Char → Prop} {name : List Char} {e body : Code} (formed : e.Formed P)
    (objects : e.Objects name) (member : body ∈ e.objects name) :
    body.Formed P ∧ ∀ entry ∈ body.arguments, entry.Keyed := by
  induction e with
  | done => cases member
  | word t rest ih => exact ih formed.2.2 objects member
  | call t gap inside rest ihInside ih =>
    obtain ⟨here, later⟩ := objects
    rcases List.mem_append.mp member with within | behind
    · split at here
      · rename_i variant
        rw [if_pos variant, Option.mem_toList] at within
        simp only [within] at here
        exact ⟨formed_object formed.2.2.1 within, here⟩
      · rename_i other
        rw [if_neg other] at within
        exact ihInside formed.2.2.1 here within
    · exact ih formed.2.2.2 later behind
  | group b inside rest ihInside ih =>
    rcases List.mem_append.mp member with within | behind
    · exact ihInside formed.1 objects.1 within
    · exact ih formed.2 objects.2 behind
  | literal q t rest ih => exact ih formed.2 objects member
  | mark c rest ih => exact ih formed.2.2 objects member

/-- The class expression of code is adapted to the code whose variant calls are resolved and pass the class on.
An entry that is not for the class is kept unless it is a spread without a colon or, in Vue, the value is an
identifier and either that of a spread or no prop. The value of an entry for the class is passed to the merging
call only if it is the class that callers pass. -/
theorem adapt_entries {code name : String} {target : Target} {e : Code} (text : stripChars code.toList = e.chars)
    (h : e.Adaptable target name.toList) :
    adapt code target (some name) = String.ofList ((e.adapted target name.toList).written target) ∧
      ∀ body ∈ (e.localized target).objects name.toList, ∀ entry ∈ body.arguments,
        (entry.isClassEntry = true → (Passed entry.keyAndValue.2 ↔ entry.keyAndValue.2 = "className".toList)) ∧
          (entry.isClassEntry = false → ∀ isProp : List Char → Bool,
            (Kept target isProp entry.chars (entry.resolvedEntry (propsSpace target)).chars ↔
              (isSpread entry.keyAndValue.1 = true → ':' ∈ entry.chars) ∧
                (target = .vue → isIdentifier entry.keyAndValue.2 = true →
                  isSpread entry.keyAndValue.1 = false ∧ isProp entry.keyAndValue.2 = true))) := by
  refine ⟨adapt_chars text h, fun body inObjects entry member => ?_⟩
  obtain ⟨formed, keyed⟩ := keyed_of_mem_objects h.inert h.objects inObjects
  refine ⟨fun _ => passed_iff _, fun _ isProp => ?_⟩
  have closed := fun (q : Char) (t : List Char) (h : Inert name.toList q t) => h.closed
  have trimmed := stripChars_argument closed formed entry member
  rw [chars_resolvedEntry closed (joinsName_propsSpace target) (formed_arguments formed entry member) trimmed
    (keyed entry member)]
  exact kept_iff trimmed (keyed entry member).2

/-- The entries of `{ variant, disabled: true, ...rest }`. -/
def buttonEntries : List Code :=
  [word "variant".toList done, word "disabled".toList (mark ':' (mark ' ' (word "true".toList done))),
    word "...rest".toList done]

/-- The class expression `cn(buttonVariants({ variant, disabled: true, ...rest }))`. -/
def buttonCall : Code :=
  call "cn".toList []
    (call "buttonVariants".toList []
      (group .curly (mark ' ' ((list buttonEntries).append (mark ' ' done))) done) done) done

theorem adapt_entries_button :
    adapt "cn(buttonVariants(\x7b variant, disabled: true, ...rest \x7d))" .vue (some "buttonVariants") =
        "cn(buttonVariants(\x7b variant: props.variant, disabled: props.true, ...rest: ...rest \x7d))" ∧
      ∀ entry ∈ buttonEntries,
        Kept .vue (· ≠ "true".toList) entry.chars (entry.resolvedEntry (propsSpace .vue)).chars ↔
          entry = word "variant".toList done := by
  have adaptable : buttonCall.Adaptable .vue "buttonVariants".toList :=
    ⟨by decide +kernel, by decide +kernel, by decide +kernel, by decide +kernel, by decide +kernel⟩
  have source :
      stripChars "cn(buttonVariants(\x7b variant, disabled: true, ...rest \x7d))".toList = buttonCall.chars := by
    decide +kernel
  obtain ⟨result, entries⟩ := adapt_entries source adaptable
  have text : (buttonCall.adapted .vue "buttonVariants".toList).written .vue =
      "cn(buttonVariants(\x7b variant: props.variant, disabled: props.true, ...rest: ...rest \x7d))".toList := by
    rw [written, if_pos rfl, Literal.attributeSafeChars_eq_self (by decide +kernel)]
    decide +kernel
  refine ⟨by rw [result, text, String.ofList_toList], fun entry inEntries => ?_⟩
  have member : ∀ entry ∈ buttonEntries, entry.isClassEntry = false ∧
      ∃ body ∈ (buttonCall.localized .vue).objects "buttonVariants".toList, entry ∈ body.arguments := by decide +kernel
  obtain ⟨plain, body, inObjects, inBody⟩ := member entry inEntries
  rw [(entries body inObjects entry inBody).2 plain]
  clear plain inBody
  revert entry
  decide +kernel

end Code

end Recast.ClassExpr
