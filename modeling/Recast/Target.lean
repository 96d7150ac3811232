import Recast.Error
import Recast.Text.Blank
import Recast.Text.Case

/-!
# Targets

The frameworks that code is generated for.
-/

set_option autoImplicit false

namespace Recast

inductive Target where
  | svelte
  | vue
  deriving DecidableEq, Repr

namespace Target

def name : Target → String
  | svelte => "svelte"
  | vue => "vue"

def extension (t : Target) : String := t.name

/-- Reads a target's name, in any case and with blanks around it. -/
def parse (s : String) : Except Report Target :=
  match Text.lower (Text.strip s) with
  | "svelte" => .ok svelte
  | "vue" => .ok vue
  | _ => .error { kind := .unsupportedTarget, message := "Unsupported target '" ++ s ++ "'" }

end Target

end Recast
