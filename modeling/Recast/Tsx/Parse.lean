import Recast.Tsx.Grammar.Statement

/-!
# Parsing a source

The productions are tied together here: the reading of a goal at depth `n + 1` uses the readings of
all goals at depth `n`. A source of length `n` never needs more than a fixed multiple of `n`
levels, because each level consumes a character at the latest after a few further goals.
-/

set_option autoImplicit false

namespace Recast.Tsx

def produce (rules : Rules) : Rules
  | .statement => anyStatement rules
  | .block => anyBlock rules
  | .expression ctx => anyExpression rules ctx
  | .single ctx => singleExpression rules ctx
  | .operation level ctx => operation rules level ctx
  | .unary => unaryExpression rules
  | .binding => anyBinding rules
  | .type inCondition => anyType rules inCondition
  | .element => anyElement rules

/-- The readings of all goals up to a depth of nesting. -/
def rulesUpTo : Nat → Rules
  | 0 => fun _ => failure
  | n + 1 => produce (rulesUpTo n)

/-- The tree of a source, or nothing when the source is not well formed. -/
def parse? (source : String) : Option Tree :=
  (program (rulesUpTo (8 * source.length + 64)) (Cursor.ofText source)).map (·.1)

/-- Reading starts from the characters of a source. Checks of closed sources start there too, since
the kernel takes long to decode a literal. -/
theorem parse?_ofList (cs : List Char) :
    parse? (String.ofList cs) =
      (program (rulesUpTo (8 * cs.length + 64)) ⟨cs.length, cs, rfl⟩).map (·.1) := by
  simp only [parse?, Cursor.ofText, String.length_ofList, String.toList_ofList]

end Recast.Tsx
