import Recast.Options.Value
import Recast.Target

/-!
# Options

What a conversion is asked to do. Options are only made through `Options.check`, which refuses
combinations that no generator supports.
-/

set_option autoImplicit false

namespace Recast

/-- A time limit in seconds, as it was given. -/
inductive Seconds where
  | whole (n : Int)
  | real (x : Float)
  deriving Inhabited

namespace Seconds

def isPositive : Seconds → Bool
  | whole n => 0 < n
  | real x => !(x ≤ 0.0)

def «show» : Seconds → String
  | whole n => toString n
  | real x => Number.showFloat x

end Seconds

structure SvelteOptions where
  version : Int := 5
  useRunes : Bool := true
  deriving DecidableEq, Repr

/-- Runes need version 5. -/
def SvelteOptions.runes (o : SvelteOptions) : Bool := 5 ≤ o.version && o.useRunes

structure VueOptions where
  /-- Whether components are written with a setup script. -/
  scriptSetup : Bool := true
  deriving DecidableEq, Repr

structure Options where
  target : Target := .svelte
  typescript : Bool := true
  emitFormatted : Bool := false
  /-- Where the class merging helper is imported from, if that is not the place of the target. -/
  classMergeImport : Value := .null
  svelte : SvelteOptions := {}
  vue : VueOptions := {}
  formatTimeout : Seconds := .real 10.0
  normalizePrimitives : Bool := true
  targetComponent : Option String := none
  deriving Inhabited

namespace Options

def defaultClassMergePath : Target → String
  | .svelte => "$lib/utils"
  | .vue => "@/lib/utils"

def classMergePath (o : Options) : Value :=
  if o.classMergeImport.isTrue then o.classMergeImport
  else .text (defaultClassMergePath o.target)

/-- Refuses unknown versions, time limits that have passed already, and Vue output without a setup
script. -/
def check (o : Options) : Except Report Options :=
  if o.svelte.version ≠ 4 ∧ o.svelte.version ≠ 5 then
    .error {
      kind := .config
      message := "Unsupported Svelte version " ++ toString o.svelte.version
      hint := some "Use 4 or 5." }
  else if !o.formatTimeout.isPositive then
    .error { kind := .config, message := "format_timeout must be positive" }
  else if !o.vue.scriptSetup then
    .error {
      kind := .config
      message := "Vue output only supports <script setup>"
      hint := some "Remove 'script_setup = false' from the [vue] table." }
  else .ok o

end Options

/-- Settings that replace those of given options where they are present. -/
structure Overrides where
  target : Option String := none
  typescript : Option Bool := none
  emitFormatted : Option Bool := none
  classMergeImport : Option Value := none
  svelteVersion : Option Int := none
  useRunes : Option Bool := none
  formatTimeout : Option Seconds := none
  normalizePrimitives : Option Bool := none
  targetComponent : Option String := none

def Options.merged (o : Options) (s : Overrides) : Except Report Options := do
  let target ← (s.target.map Target.parse).getD (.ok o.target)
  check {
    target
    typescript := s.typescript.getD o.typescript
    emitFormatted := s.emitFormatted.getD o.emitFormatted
    classMergeImport := s.classMergeImport.getD o.classMergeImport
    svelte := {
      version := s.svelteVersion.getD o.svelte.version
      useRunes := s.useRunes.getD o.svelte.useRunes }
    vue := o.vue
    formatTimeout := s.formatTimeout.getD o.formatTimeout
    normalizePrimitives := s.normalizePrimitives.getD o.normalizePrimitives
    targetComponent := s.targetComponent <|> o.targetComponent }

end Recast
