/-!
# Warnings while analyzing

An analysis never fails: what it cannot make sense of it leaves out, with a warning in the order of
discovery.
-/

set_option autoImplicit false

namespace Recast.Analysis

/-- A computation that may leave warnings. -/
abbrev Noting := StateM (List String)

def warn (message : String) : Noting Unit := modify (· ++ [message])

end Recast.Analysis
