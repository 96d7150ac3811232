import Recast.Assoc
import Recast.Target
import Recast.Text.Search

/-!
# Icon packages

Icon packages of the source framework and their counterparts for each target.
-/

set_option autoImplicit false

namespace Recast.Catalog

/-- The package that replaces an icon package, per target. -/
structure IconPackages where
  svelte : String
  vue : String
  deriving DecidableEq, Repr

def iconPackages : Assoc IconPackages := [
  ("lucide-react", ⟨"lucide-svelte", "lucide-vue-next"⟩),
  ("@heroicons/react", ⟨"@steeze-ui/heroicons", "@heroicons/vue"⟩),
  ("react-icons", ⟨"svelte-icons", "vue3-icons"⟩)]

def isIconPackage (source : String) : Bool :=
  iconPackages.has source || iconPackages.any fun entry => Text.startsWith (entry.1 ++ "/") source

/-- The counterpart of an icon package. Modules inside a package have none. -/
def iconPackageFor? (source : String) (target : Target) : Option String :=
  (iconPackages.get? source).map fun p =>
    match target with
    | .svelte => p.svelte
    | .vue => p.vue

end Recast.Catalog
