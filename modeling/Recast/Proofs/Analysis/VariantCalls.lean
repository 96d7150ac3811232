import Recast.Analysis.Variants
import Recast.Proofs.ClassExpr.Calls

/-!
# Which configuration a component calls

A component is given the first configuration whose name stands in its text with a parenthesis right
behind it. Class expressions are searched for calls instead: there the name must not be the end of
another name or a member, and blanks may stand in front of the parenthesis. So the two agree as long as
the first name that either of them finds is found by both.
-/

set_option autoImplicit false

namespace Recast

/-- Two searches of a list find the same if and only if the first element that one of them accepts is
accepted by the other, too. -/
theorem find?_eq_find?_iff {α : Type} (p q : α → Bool) (list : List α) :
    list.find? p = list.find? q ↔
      ∀ before a behind, list = before ++ a :: behind → (∀ b ∈ before, p b = false ∧ q b = false) →
        p a = true ∨ q a = true → p a = true ∧ q a = true := by
  induction list with
  | nil => simp
  | cons a list ih =>
    by_cases either : p a = true ∨ q a = true
    · -- the searches are over at `a` for one of them
      constructor
      · intro same before b behind split silent accepted
        cases before with
        | nil =>
          obtain ⟨rfl, rfl⟩ := List.cons.inj split
          rcases accepted with here | here
          · rw [List.find?_cons_of_pos here] at same
            exact ⟨here, List.find?_some same.symm⟩
          · rw [List.find?_cons_of_pos here] at same
            exact ⟨List.find?_some same, here⟩
        | cons c before =>
          obtain ⟨rfl, rfl⟩ := List.cons.inj split
          have rejected := silent a (by simp)
          simp [rejected] at either
      · intro agree
        obtain ⟨left, right⟩ := agree [] a list rfl (by simp) either
        rw [List.find?_cons_of_pos left, List.find?_cons_of_pos right]
    · have left : p a = false := by simpa using fun h => either (.inl h)
      have right : q a = false := by simpa using fun h => either (.inr h)
      rw [List.find?_cons_of_neg (by simp [left]), List.find?_cons_of_neg (by simp [right]), ih]
      constructor
      · intro agree before b behind split silent accepted
        cases before with
        | nil =>
          obtain ⟨rfl, rfl⟩ := List.cons.inj split
          exact absurd accepted either
        | cons c before =>
          obtain ⟨rfl, rfl⟩ := List.cons.inj split
          exact agree before b behind rfl (fun d member => silent d (by simp [member])) accepted
      · intro agree before b behind split silent accepted
        refine agree (a :: before) b behind (by rw [split, List.cons_append]) ?_ accepted
        intro c member
        rcases List.mem_cons.mp member with rfl | later
        · exact ⟨left, right⟩
        · exact silent c later

namespace Analysis

open Recast.ClassExpr Recast.Text

/-- The name stands somewhere in the text with a parenthesis right behind it, whatever is in front. -/
def Touches (name text : List Char) : Prop := ∃ front back, text = front ++ (name ++ '(' :: back)

theorem contains_paren_iff (name text : String) :
    Text.contains (name ++ "(") text = true ↔ Touches name.toList text.toList := by
  have parts : (name ++ "(").toList = name.toList ++ ['('] := String.toList_append
  rw [Text.contains, occurs_iff, parts]
  constructor
  · rintro ⟨front, back, whole⟩
    exact ⟨front, back, by simpa using whole.symm⟩
  · rintro ⟨front, back, whole⟩
    exact ⟨front, back, by simpa using whole.symm⟩

/-- The first configuration that a text calls. -/
def calledName? (source : String) (names : List String) : Option String :=
  names.find? fun name => (findCall? name.toList source.toList 0).isSome

/-- A component is given the first configuration whose name its text touches. This is the first one that
the text calls, and none if it calls none, if and only if the first of the names that is touched or
called is both. -/
theorem variantNameFor_called_iff (source : String) (configs : Assoc VariantConfig) :
    (∀ name, variantNameFor? source configs.keys = some name ↔
      Touches name.toList source.toList ∧ ∃ before behind, configs.keys = before ++ name :: behind ∧
        ∀ other ∈ before, ¬ Touches other.toList source.toList) ∧
    (∀ name, calledName? source configs.keys = some name ↔
      Calls name.toList source.toList ∧ ∃ before behind, configs.keys = before ++ name :: behind ∧
        ∀ other ∈ before, ¬ Calls other.toList source.toList) ∧
    (variantNameFor? source configs.keys = calledName? source configs.keys ↔
      ∀ before name behind, configs.keys = before ++ name :: behind →
        (∀ other ∈ before, ¬ Touches other.toList source.toList ∧ ¬ Calls other.toList source.toList) →
        Touches name.toList source.toList ∨ Calls name.toList source.toList →
        Touches name.toList source.toList ∧ Calls name.toList source.toList) := by
  refine ⟨fun name => ?_, fun name => ?_, ?_⟩
  · rw [variantNameFor?, List.find?_eq_some_iff_append, contains_paren_iff]
    simp only [Bool.not_eq_true', ← Bool.not_eq_true, contains_paren_iff]
  · rw [calledName?, List.find?_eq_some_iff_append, findCall?_isSome_iff]
    simp only [Bool.not_eq_true', ← Bool.not_eq_true, findCall?_isSome_iff]
  · rw [variantNameFor?, calledName?, find?_eq_find?_iff]
    simp only [← Bool.not_eq_true, contains_paren_iff, findCall?_isSome_iff]

-- the name of one configuration ends another one's, which is the one that is called
example :
    let names := ["button_variants", "icon_button_variants"]
    variantNameFor? "<i className=\x7bicon_button_variants()\x7d />" names = some "button_variants" ∧
      calledName? "<i className=\x7bicon_button_variants()\x7d />" names = some "icon_button_variants" := by
  decide +kernel

end Analysis

end Recast
