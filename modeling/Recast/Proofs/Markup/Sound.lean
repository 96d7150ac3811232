import Recast.Markup.Node

/-!
# Sound markup

A forest is sound if every node in it is one that could have been made: no void element has children,
and no value of another kind stands where a node belongs. `Node.make` refuses exactly the elements
that are not sound.
-/

set_option autoImplicit false

namespace Recast.Markup

/-- What is asked of a node apart from its children. -/
def Node.IsSound : Node → Prop
  | .element h cs => h.isVoid = true → cs = []
  | .text _ _ => True
  | .fragment _ => True
  | .guarded _ _ => True
  | .slot _ => True
  | .foreign _ => False

/-- Every node of a forest is as it is made. -/
def Sound (nodes : List Node) : Prop := ∀ n ∈ Node.preorderList nodes, n.IsSound

/-- The markup of a component as it can be built: `Node.make` accepts every element in it. -/
structure Forest where
  nodes : List Node
  sound : Sound nodes

instance (n : Node) : Decidable n.IsSound :=
  match n with
  | .element h cs => inferInstanceAs (Decidable (h.isVoid = true → cs = []))
  | .text _ _ => .isTrue trivial
  | .fragment _ => .isTrue trivial
  | .guarded _ _ => .isTrue trivial
  | .slot _ => .isTrue trivial
  | .foreign _ => .isFalse id

instance (nodes : List Node) : Decidable (Sound nodes) :=
  inferInstanceAs (Decidable (∀ n ∈ Node.preorderList nodes, n.IsSound))

theorem Node.make_eq_ok_iff (h : Head) (cs : List Node) :
    Node.make h cs = .ok (.element h cs) ↔ (Node.element h cs).IsSound := by
  rw [Node.make, Node.IsSound]
  cases h.isVoid with
  | false => simp
  | true => cases cs <;> simp

theorem Node.preorderList_append (ns ms : List Node) :
    preorderList (ns ++ ms) = preorderList ns ++ preorderList ms := by
  induction ns with
  | nil => rfl
  | cons n ns ih => rw [List.cons_append, preorderList, preorderList, ih, List.append_assoc]

/-! ## Soundness follows the shape of a forest -/

@[simp]
theorem sound_nil : Sound [] := by
  intro n member
  cases member

theorem sound_append {ns ms : List Node} : Sound (ns ++ ms) ↔ Sound ns ∧ Sound ms := by
  rw [Sound, Node.preorderList_append, List.forall_mem_append]
  rfl

theorem sound_cons {n : Node} {ns : List Node} : Sound (n :: ns) ↔ Sound [n] ∧ Sound ns :=
  @sound_append [n] ns

theorem sound_flatten {groups : List (List Node)} (h : ∀ ns ∈ groups, Sound ns) :
    Sound groups.flatten := by
  induction groups with
  | nil => exact sound_nil
  | cons ns groups ih =>
    rw [List.flatten_cons, sound_append]
    exact ⟨h ns (by simp), ih fun ms hms => h ms (by simp [hms])⟩

/-- The node itself, and what lies below it. -/
theorem sound_singleton {n : Node} : Sound [n] ↔ n.IsSound ∧ Sound n.children := by
  cases n <;> simp [Sound, Node.preorderList, Node.preorder, Node.children, Node.IsSound]

@[simp]
theorem sound_element {h : Head} {cs : List Node} :
    Sound [.element h cs] ↔ (h.isVoid = true → cs = []) ∧ Sound cs :=
  sound_singleton

@[simp]
theorem sound_fragment {cs : List Node} : Sound [.fragment cs] ↔ Sound cs := by
  rw [sound_singleton, Node.IsSound, true_and, Node.children]

@[simp]
theorem sound_guarded {guard : String} {child : Node} : Sound [.guarded guard child] ↔ Sound [child] := by
  rw [sound_singleton, Node.IsSound, true_and, Node.children]

@[simp]
theorem sound_text (content : String) (isExpression : Bool) : Sound [.text content isExpression] :=
  sound_singleton.mpr ⟨trivial, sound_nil⟩

@[simp]
theorem sound_slot (name : String) : Sound [.slot name] :=
  sound_singleton.mpr ⟨trivial, sound_nil⟩

@[simp]
theorem not_sound_foreign (typeName : String) : ¬ Sound [.foreign typeName] :=
  fun sound => (sound_singleton.mp sound).1

/-! ## Parts of sound forests -/

mutual
theorem sound_of_mem_preorder : ∀ n : Node, Sound [n] → ∀ m ∈ n.preorder, Sound [m]
  | .element h children, sound, m, member => by
    rw [Node.preorder, List.mem_cons] at member
    rcases member with rfl | below
    · exact sound
    · exact sound_of_mem_preorderList children (sound_element.mp sound).2 m below
  | .fragment children, sound, m, member => by
    rw [Node.preorder, List.mem_cons] at member
    rcases member with rfl | below
    · exact sound
    · exact sound_of_mem_preorderList children (sound_fragment.mp sound) m below
  | .guarded guard child, sound, m, member => by
    rw [Node.preorder, List.mem_cons] at member
    rcases member with rfl | below
    · exact sound
    · exact sound_of_mem_preorder child (sound_guarded.mp sound) m below
  | .text content isExpression, sound, m, member => by
    rw [Node.preorder, List.mem_singleton] at member
    rwa [member]
  | .slot name, sound, m, member => by
    rw [Node.preorder, List.mem_singleton] at member
    rwa [member]
  | .foreign typeName, sound, _, _ => absurd sound (not_sound_foreign typeName)
theorem sound_of_mem_preorderList : ∀ ns : List Node, Sound ns → ∀ m ∈ Node.preorderList ns, Sound [m]
  | [], _, _, member => by cases member
  | n :: ns, sound, m, member => by
    obtain ⟨first, more⟩ := sound_cons.mp sound
    rw [Node.preorderList, List.mem_append] at member
    rcases member with here | later
    · exact sound_of_mem_preorder n first m here
    · exact sound_of_mem_preorderList ns more m later
end

end Recast.Markup
