import Recast.Proofs.Text.Literal

/-!
# Scripts as tokens

A script is read as a list of tokens: literals with their delimiters, and the code between them.
-/

set_option autoImplicit false

namespace Recast.Literal

open Recast.Text

/-- A piece of a script. -/
inductive Token where
  | code (text : String)
  | literal (delimiter : Char) (contents : String)

namespace Token

def chars : Token → List Char
  | code text => text.toList
  | literal q contents => delimited q contents.toList

def literal? : Token → Option (Char × String)
  | code _ => none
  | literal q contents => some (q, contents)

end Token

def spelled (ts : List Token) : List Char := ts.flatMap Token.chars

def literals (ts : List Token) : List (Char × String) := ts.filterMap Token.literal?

section

variable (q : Char) (text : String) (ts us : List Token)

@[simp] theorem spelled_nil : spelled [] = [] := rfl

@[simp] theorem spelled_code : spelled (.code text :: ts) = text.toList ++ spelled ts := rfl

@[simp] theorem spelled_literal : spelled (.literal q text :: ts) = delimited q text.toList ++ spelled ts := rfl

@[simp] theorem spelled_append : spelled (ts ++ us) = spelled ts ++ spelled us := List.flatMap_append

@[simp] theorem literals_nil : literals [] = [] := rfl

@[simp] theorem literals_code : literals (.code text :: ts) = literals ts := rfl

@[simp] theorem literals_literal : literals (.literal q text :: ts) = (q, text) :: literals ts := rfl

@[simp] theorem literals_append : literals (ts ++ us) = literals ts ++ literals us := List.filterMap_append

end

/-- Parts with code between them. -/
def separated (sep : String) : List (List Token) → List Token
  | [] => []
  | [part] => part
  | part :: parts => part ++ .code sep :: separated sep parts

theorem spelled_separated (sep : String) (parts : List (List Token)) :
    spelled (separated sep parts) = joinChars sep.toList (parts.map spelled) := by
  fun_induction separated sep parts with
  | case1 => rfl
  | case2 part => rfl
  | case3 part parts nonempty ih =>
    obtain ⟨next, parts, rfl⟩ := List.exists_cons_of_ne_nil nonempty
    rw [spelled_append, spelled_code, ih]
    simp [joinChars]

theorem literals_separated (sep : String) (parts : List (List Token)) :
    literals (separated sep parts) = parts.flatMap literals := by
  fun_induction separated sep parts with
  | case1 => rfl
  | case2 part => simp
  | case3 part parts nonempty ih => rw [literals_append, literals_code, ih, List.flatMap_cons]

end Recast.Literal
