import Recast.Generate.Declaration
import Recast.Options.Basic
import Recast.Component.Basic

/-!
# Generated components

What a generator delivers: the declarations as data, and the script and the markup in text.
-/

set_option autoImplicit false

namespace Recast.Generate

structure Generated where
  name : String
  target : Target
  declarations : List Declaration
  declarationBlock : String
  markupBlock : String
  filename : String
  /-- The markup was not known and had to be made up. -/
  usedFallback : Bool := false
  deriving DecidableEq, Repr

def Generated.assemble (g : Generated) : String :=
  Text.stripEnd g.declarationBlock ++ "\n\n" ++ Text.stripEnd g.markupBlock ++ "\n"

def outputFilename (c : Component) (o : Options) : String := c.name ++ "." ++ o.target.extension

end Recast.Generate
