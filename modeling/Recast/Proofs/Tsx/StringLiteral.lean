import Recast.Proofs.Text.Literal
import Recast.Proofs.Tsx.Reading

/-!
# Reading strings

A string is a run of plain characters, an escape and so on, up to its closing quote. Contents that
have a value between two quotes are read to the second one, whatever follows.
-/

set_option autoImplicit false

namespace Recast.Tsx

open Recast.Literal
open Recast.Text

/-! ## Escapes -/

theorem escapeLength_append {cs back : List Char} {n : Nat} (extent : escapeLength cs = some n)
    (apart : back.head? ≠ some '\n') : escapeLength (cs ++ back) = some n := by
  rw [escapeLength.eq_def] at extent
  split at extent
  · exact extent
  · cases extent
  · rename_i rest
    dsimp only at extent
    split at extent
    · rename_i closed
      have brace : (rest.dropWhile isHex).head? = some '}' := by
        rw [← getElem?_takeWhile_length]
        simp_all
      have nonempty : rest.takeWhile isHex ≠ [] := by simp_all
      obtain ⟨more, found⟩ := List.head?_eq_some_iff.mp brace
      have whole : rest = rest.takeWhile isHex ++ '}' :: more := by
        rw [← found, List.takeWhile_append_dropWhile]
      generalize digits : rest.takeWhile isHex = front at whole nonempty extent
      have hex : ∀ c ∈ front, isHex c = true := by
        rw [← digits]
        exact fun c => List.mem_takeWhile_imp
      have same : (rest ++ back).takeWhile isHex = front := by
        rw [whole, List.append_assoc, List.takeWhile_append_of_pos hex]
        simp [isHex]
      have last : (rest ++ back)[front.length]? = some '}' := by
        rw [whole]
        simp
      simp only [List.cons_append, escapeLength, same, last]
      simpa [nonempty] using extent
    · cases extent
  · rename_i a b c d rest other
    show escapeLength ('u' :: a :: b :: c :: d :: (rest ++ back)) = _
    rw [escapeLength]
    · exact extent
    · exact other
  · cases extent
  · exact extent
  · rename_i c rest _ notX _ _ notU single
    cases extent
    rw [List.cons_append, escapeLength]
    · exact fun _ _ _ same _ => notX same
    · exact notX
    · exact fun _ same _ => notU same
    · exact fun _ _ _ _ _ same _ => notU same
    · exact notU
    · intro more carriage feed
      cases rest with
      | nil =>
        rw [List.nil_append] at feed
        exact apart (by rw [feed]; rfl)
      | cons d rest =>
        cases feed
        exact single rest carriage rfl
  · cases extent

theorem escapeLength_le {cs : List Char} {n : Nat} (extent : escapeLength cs = some n) : n ≤ cs.length := by
  rw [escapeLength.eq_def] at extent
  split at extent
  · split at extent <;> cases extent
    simp
  · cases extent
  · dsimp only at extent
    split at extent
    · rename_i cs closed
      cases extent
      have found : cs[(cs.takeWhile isHex).length]? = some '}' := by simp_all
      have inside := (List.getElem?_eq_some_iff.mp found).1
      simp only [List.length_cons]
      omega
    · cases extent
  · split at extent <;> cases extent
    simp
  · cases extent
  · cases extent
    simp
  · cases extent
    simp
  · cases extent

/-! ## Pieces of a string -/

/-- What a string holds besides escapes. -/
def isPlain (q c : Char) : Bool := c != q && c != '\\' && c != '\n' && c != '\r'

theorem reads_escape {cs : List Char} {n : Nat} (extent : escapeLength cs = some n) :
    Reads escape ('\\' :: cs) () (cs.drop n) := by
  refine .bind (reads_chars "\\" cs) (.bind (reads_get _) ?_)
  simp only [Cursor.rest_before, extent]
  exact reads_set _ _

theorem fails_escape {c : Char} (other : c ≠ '\\') (cs : List Char) : Fails escape (c :: cs) :=
  .bind (fails_chars (by simp [after?, other.symm]))

theorem reads_takeSome {p : Char → Bool} {w rest : List Char} (nonempty : w ≠ []) (all : ∀ c ∈ w, p c = true)
    (ends : rest.head?.any p = false) : Reads (takeSome p) (w ++ rest) () rest := by
  refine .bind (reads_takeWhile all ends) ?_
  rw [decide_eq_true nonempty]
  exact .pure _ _

theorem fails_takeSome {p : Char → Bool} {c : Char} (other : p c = false) (cs : List Char) :
    Fails (takeSome p) (c :: cs) :=
  .later (a := []) (reads_takeWhile (w := []) nofun (by simpa using other)) rfl

/-- Reads one piece of a string: a run of plain characters, or an escape. -/
def stringPiece (q : Char) : Reader Unit := takeSome (isPlain q) <|> escape

theorem ReadsAll.run {q : Char} {front back rest : List Char} {pieces : List Unit}
    (plain : ∀ c ∈ front, isPlain q c = true) (ends : back.head?.any (isPlain q) = false)
    (more : ReadsAll (stringPiece q) back pieces rest) :
    ∃ pieces, ReadsAll (stringPiece q) (front ++ back) pieces rest := by
  by_cases nothing : front = []
  · subst nothing
    exact ⟨pieces, more⟩
  · have shorter : back.length < (front ++ back).length := by
      have := List.length_pos_iff.mpr nothing
      rw [List.length_append]
      omega
    exact ⟨() :: pieces, .step (.orElse (reads_takeSome nothing plain ends)) shorter more⟩

/-- A string that has a value is a run of plain characters, then an escape and so on, to its closing
quote. -/
theorem readsAll_string {q : Char} (quote : q = '"' ∨ q = '\'') {cs : List Char} {v : List Nat}
    (value : units? q cs = some v) (rest : List Char) :
    ∃ front back pieces, cs ++ q :: rest = front ++ back ∧ (∀ c ∈ front, isPlain q c = true) ∧
      back.head?.any (isPlain q) = false ∧ ReadsAll (stringPiece q) back pieces (q :: rest) := by
  have closing : isPlain q q = false ∧ q ≠ '\\' ∧ q ≠ '\n' ∧ q ≠ '`' := by
    rcases quote with rfl | rfl <;> decide
  fun_induction units? q cs generalizing v with
  | case1 =>
    have stop : Fails (stringPiece q) (q :: rest) :=
      .orElse (fails_takeSome closing.1 rest) (fails_escape closing.2.1 rest)
    exact ⟨[], q :: rest, [], rfl, List.forall_mem_nil _, by simpa using closing.1, .stop stop⟩
  | case2 => cases value
  | case3 c cs us cs' item ih =>
    obtain ⟨v', inside, -⟩ := Option.map_eq_some_iff.mp value
    obtain ⟨front, back, pieces, whole, plain, ends, more⟩ := ih inside
    have apart : c ≠ q := by
      intro same
      rw [item?, if_pos same] at item
      cases item
    rw [item?, if_neg apart] at item
    split at item
    · rename_i backslash
      subst backslash
      rw [escape?] at item
      split at item
      · cases item
      · rename_i n extent
        obtain ⟨_, -, same⟩ := Option.map_eq_some_iff.mp item
        cases same
        have within : escapeLength (cs ++ q :: rest) = some n :=
          escapeLength_append extent (by simpa using closing.2.2.1)
        have left : (cs ++ q :: rest).drop n = front ++ back := by
          rw [List.drop_append_of_le_length (escapeLength_le extent), whole]
        have first : Reads (stringPiece q) ('\\' :: (cs ++ q :: rest)) () (front ++ back) := by
          rw [← left]
          exact .orElse_right (fails_takeSome (by simp [isPlain]) _) (reads_escape within)
        obtain ⟨pieces, all⟩ := more.run plain ends
        refine ⟨[], '\\' :: (cs ++ q :: rest), () :: pieces, rfl, List.forall_mem_nil _, by simp [isPlain], .step first ?_ all⟩
        rw [← left, List.length_drop, List.length_cons]
        omega
    · rename_i other
      rw [plain?, if_neg closing.2.2.2] at item
      split at item
      · cases item
      · rename_i line
        cases item
        have here : isPlain q c = true := by simp_all [isPlain]
        exact ⟨c :: front, back, pieces, by rw [List.cons_append, whole]; rfl,
          List.forall_mem_cons.mpr ⟨here, plain⟩, ends, more⟩

/-- A string is read to its closing quote, if it has a value. -/
theorem reads_stringLiteral {q : Char} (quote : q = '"' ∨ q = '\'') {cs : List Char} {v : List Nat}
    (value : units? q cs = some v) (rest : List Char) :
    Reads stringLiteral (delimited q cs ++ rest)
      (.mk .stringLiteral .none (String.ofList (delimited q cs)) []) rest := by
  obtain ⟨front, back, pieces, whole, plain, ends, more⟩ := readsAll_string quote value rest
  obtain ⟨pieces, all⟩ := more.run plain ends
  rw [← whole] at all
  have opening : opens (delimited q cs ++ rest) = true := by
    rcases quote with rfl | rfl <;> rfl
  have opened : Reads (satisfy fun c => c == '"' || c == '\'') (q :: (cs ++ q :: rest)) q (cs ++ q :: rest) := by
    refine .bind (reads_get _) ?_
    have quoted : (q == '"' || q == '\'') = true := by simpa using quote
    simp only [Cursor.rest_before, quoted, if_true]
    exact .bind (reads_set _ _) (.pure _ _)
  have closed : Reads (chars (String.singleton q)) (q :: rest) () rest := by
    have read := reads_chars (String.singleton q) rest
    rwa [String.toList_singleton] at read
  refine .leaf (a := ()) (reads_skip opening) ?_
  have shape : delimited q cs ++ rest = q :: (cs ++ q :: rest) := by simp [delimited]
  rw [shape]
  exact .bind opened (.bind all.many closed)

theorem fails_stringLiteral {cs body : List Char} (skips : Reads skip cs () body)
    (other : body.head?.any (fun c => c == '"' || c == '\'') = false) : Fails stringLiteral cs := by
  refine .leaf skips (.bind (.later (reads_get _) ?_))
  cases body with
  | nil => rfl
  | cons c body =>
    simp only [Cursor.rest_before, show (c == '"' || c == '\'') = false from other]
    rfl

end Recast.Tsx
