import Recast.Proofs.ClassExpr.Spelling

/-!
# Adapted class expressions

The steps that adapt a class expression to a target all work on text. Where the text is that of code, and no
literal spells a call, each step does to the text what its counterpart does to the code: access to the props
object is taken off the names, variant calls are resolved and pass the class on, and Vue spells the class prop
its own way.
-/

set_option autoImplicit false

namespace Recast.ClassExpr

open Recast.Text

/-- The namespace in which the props of a component stand. -/
def propsSpace (target : Target) : List Char := if target = .vue then "props.".toList else []

/-- Text without access to the props object. -/
def withoutAccess (target : Target) (cs : List Char) : List Char :=
  stripPropsAccessChars (if target = .vue then replaceChars "props.className".toList "className".toList cs else cs)

/-- Text as it is written into an attribute of a target. -/
def finished (target : Target) (cs : List Char) : List Char :=
  if target = .vue then attributeSafeChars (classToProps cs) else cs

theorem adapt_eq {name : String} (named : name ≠ "") (code : String) (target : Target) :
    adapt code target (some name) =
      String.ofList (finished target
        (let resolved := resolveCalls name.toList (propsSpace target) (withoutAccess target (stripChars code.toList))
        resolved.2.reverse.foldl (fun code span => appendClass code span "className".toList) resolved.1)) := by
  have called : (some name).filter (· ≠ "") = some name :=
    Option.filter_eq_some_iff.mpr ⟨rfl, by rwa [decide_eq_true_iff]⟩
  rw [adapt, called]
  rfl

/-- A literal that ends where it says and spells no call. -/
structure Inert (name : List Char) (q : Char) (contents : List Char) : Prop where
  closed : Closed q contents
  uncalled : findCall? name contents 0 = none
  unmerged : findCall? mergeName contents 0 = none

instance (q : Char) (contents : List Char) : Decidable (Closed q contents) :=
  decidable_of_iff (isQuote q = true ∧ closes q contents = true ∧ contents.getLast? ≠ some '\\')
    ⟨fun h => ⟨h.1, h.2.1, h.2.2⟩, fun h => ⟨h.quote, h.closes, h.last⟩⟩

instance (name : List Char) (q : Char) (contents : List Char) : Decidable (Inert name q contents) :=
  decidable_of_iff (Closed q contents ∧ findCall? name contents 0 = none ∧ findCall? mergeName contents 0 = none)
    ⟨fun h => ⟨h.1, h.2.1, h.2.2⟩, fun h => ⟨h.closed, h.uncalled, h.unmerged⟩⟩

theorem joinsName_propsSpace (target : Target) : (propsSpace target).all joinsName = true := by
  cases target <;> decide

theorem spelling_withoutAccess (target : Target) : Spelling (withoutAccess target) := by
  cases target with
  | svelte => exact spelling_stripPropsAccessChars
  | vue =>
    have named : IsName "props.className".toList := by decide
    exact spelling_stripPropsAccessChars.comp (spelling_replaceChars named "className".toList)

namespace Code

variable {e : Code} {name : List Char}

/-- Code without access to the props object. -/
def localized (target : Target) (e : Code) : Code := e.spelled (withoutAccess target)

/-- Code whose variant calls are resolved for a target and have passed the class on. -/
def adapted (target : Target) (name : List Char) (e : Code) : Code :=
  ((e.localized target).moved name (propsSpace target) false).1

/-- The text of code as a target has it. -/
def written (target : Target) (e : Code) : List Char :=
  if target = .vue then attributeSafeChars (e.spelled classToProps).chars else e.chars

/-- What adapting an expression needs to know of its code: it is code before and after access to the props
object is taken off, no literal of it spells a call, and the variant calls take objects that are cut at the
colons of their entries. -/
structure Adaptable (target : Target) (name : List Char) (e : Code) : Prop where
  isName : IsName name
  other : name ≠ mergeName
  formed : e.Formed Closed
  inert : (e.localized target).Formed (Inert name)
  objects : (e.localized target).Objects name

theorem formed_moved {P : Char → List Char → Prop} {space : List Char} (isName : IsName name)
    (joined : space.all joinsName = true) (formed : e.Formed P) (enclosed : Bool) :
    (e.moved name space enclosed).1.Formed P := by
  rw [← movedFrom_zero enclosed 0]
  exact formed_movedFrom isName joined formed 0 0 enclosed

theorem formed_adapted {target : Target} (h : e.Adaptable target name) : (e.adapted target name).Formed (Inert name) :=
  formed_moved h.isName (joinsName_propsSpace target) h.inert false

/-- Resolving the variant calls of an expression and passing the class on gives the text of the code in which
they have. -/
theorem resolveCalls_adapted {target : Target} (h : e.Adaptable target name) :
    (let resolved := resolveCalls name (propsSpace target) (e.localized target).chars
     resolved.2.reverse.foldl (fun code span => appendClass code span "className".toList) resolved.1) =
      (e.adapted target name).chars := by
  have joined := joinsName_propsSpace target
  rw [resolveCalls_chars (fun _ _ => Inert.closed) (fun _ _ => Inert.uncalled) h.isName joined h.inert h.objects]
  exact foldl_appendClass (fun _ _ => Inert.closed) (fun _ _ => Inert.unmerged) h.isName h.other joined h.inert

/-- An expression is adapted element by element. -/
theorem adapt_chars {code name : String} {target : Target} (text : stripChars code.toList = e.chars)
    (h : e.Adaptable target name.toList) :
    adapt code target (some name) = String.ofList ((e.adapted target name.toList).written target) := by
  have named : name ≠ "" := by
    rintro rfl
    exact h.isName.1 rfl
  have localized := chars_spelled (spelling_withoutAccess target) (fun _ _ h => h) h.formed
  have resolved := resolveCalls_adapted h
  have classNamed := chars_spelled spelling_classToProps (fun _ _ => Inert.closed) (formed_adapted h)
  rw [Code.localized, ← localized, ← text] at resolved
  rw [adapt_eq named, resolved, finished, written, classNamed]

end Code

end Recast.ClassExpr
