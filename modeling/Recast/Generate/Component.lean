import Recast.Generate.Svelte.Component
import Recast.Generate.Vue.Component

/-!
# Generating components
-/

set_option autoImplicit false

namespace Recast.Generate

def generate (c : Component) (o : Options) : Except Report Generated :=
  match o.target with
  | .svelte => Svelte.generate c o
  | .vue => Vue.generate c o

end Recast.Generate
