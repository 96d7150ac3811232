import Recast.Text.Blank
import Recast.Text.Search

/-!
# Declarations

What a generated script declares, as data. A script is the list of its declarations in a fixed order
of kinds; the spelling of most kinds is left to a serializer.
-/

set_option autoImplicit false

namespace Recast.Generate

/-- The kinds of declaration, in the order in which a script has them. -/
inductive DeclarationKind where
  | importing
  | variant
  | propType
  | propBinding
  | emits
  | derived
  | ref
  | state
  | effect
  | handler
  deriving DecidableEq, Repr

def DeclarationKind.rank : DeclarationKind → Nat
  | importing => 0
  | variant => 1
  | propType => 2
  | propBinding => 3
  | emits => 4
  | derived => 5
  | ref => 6
  | state => 7
  | effect => 8
  | handler => 9

structure PropBinding where
  name : String
  «local» : Option String := none
  default : Option String := none
  type : String := "unknown"
  bindable : Bool := false
  /-- Binds all props that have no binding of their own. -/
  rest : Bool := false
  deriving DecidableEq, Repr

def PropBinding.localName (b : PropBinding) : String :=
  (b.local.filter (· ≠ "")).getD b.name

/-- A declaration. `code` is text that is the same in every spelling, `value` the expression of
declarations that are spelled around one. -/
structure Declaration where
  kind : DeclarationKind
  name : String := ""
  code : String := ""
  value : String := ""
  type : Option String := none
  bindings : List PropBinding := []
  deriving DecidableEq, Repr

/-- Declarations in the order of their kinds, each kind in its given order. -/
def sortDeclarations (declarations : List Declaration) : List Declaration :=
  declarations.mergeSort fun a b => decide (a.kind.rank ≤ b.kind.rank)

def indent : String := "  "

def pad (depth : Nat) : String := String.ofList (List.replicate (2 * depth) ' ')

/-- Indents every line that is not empty. -/
def indentLines (text : String) : String :=
  Text.join "\n" ((Text.lines text).map fun line => if line = "" then "" else indent ++ line)

end Recast.Generate
