import Recast.Command.Arguments
import Recast.Number.Read
import Recast.Target

/-!
# What the command line asks for

The switches of the program and of its one command, and the settings they lead to.
-/

set_option autoImplicit false

namespace Recast.Command

open Recast.Text

def programName : String := "component-converter"

def version : String := "0.1.0"

structure Settings where
  input : String := ""
  target : Option String := none
  out : Option String := none
  all : Bool := false
  component : Option String := none
  format : Bool := false
  prettier : Bool := false
  svelteVersion : Option Int := none
  noTypescript : Bool := false
  plugins : List String := []
  config : Option String := none
  verbose : Bool := false
  deriving DecidableEq, Repr

/-- The complaint about a word that is none of those on offer. -/
def notAChoice (given : String) (choices : List String) : String :=
  "invalid choice: " ++ given ++ " (choose from " ++ join ", " choices ++ ")"

/-- Reads the name of a target, which has to be spelled out. -/
def chooseTarget (s : String) (settings : Settings) : Except String Settings :=
  let names := [Target.svelte, .vue].map Target.name
  if names.contains s then .ok { settings with target := some s }
  else .error (notAChoice (quoted s) (names.map quoted))

def chooseVersion (s : String) (settings : Settings) : Except String Settings :=
  match Number.readInt? s with
  | none => .error ("invalid int value: " ++ quoted s)
  | some n =>
    if n = 4 ∨ n = 5 then .ok { settings with svelteVersion := some n }
    else .error (notAChoice (toString n) ["4", "5"])

def helpSwitch {σ : Type} (program : String) : Switch σ :=
  { names := ["-h", "--help"], takesArgument := false, stop := some (.help program) }

def flagSwitch (names : List String) (set : Settings → Settings) : Switch Settings :=
  { names, takesArgument := false, apply := fun _ settings => .ok (set settings) }

def textSwitch (names : List String) (set : String → Settings → Settings) : Switch Settings :=
  { names, apply := fun s settings => .ok (set s settings) }

def convertProgram : String := programName ++ " convert"

def convertGrammar : Grammar Settings where
  program := convertProgram
  switches := [
    helpSwitch convertProgram,
    { names := ["-t", "--target"], apply := chooseTarget },
    textSwitch ["-o", "--out"] fun s settings => { settings with out := some s },
    flagSwitch ["--all"] fun settings => { settings with all := true },
    textSwitch ["-c", "--component"] fun s settings => { settings with component := some s },
    flagSwitch ["--format"] fun settings => { settings with format := true },
    flagSwitch ["--prettier"] fun settings => { settings with prettier := true },
    { names := ["--svelte-version"], apply := chooseVersion },
    flagSwitch ["--no-typescript"] fun settings => { settings with noTypescript := true },
    textSwitch ["-p", "--plugin"] fun s settings =>
      { settings with plugins := settings.plugins ++ [s] },
    textSwitch ["--config"] fun s settings => { settings with config := some s },
    flagSwitch ["-v", "--verbose"] fun settings => { settings with verbose := true }]
  positional := {
    name := "input"
    apply := fun words settings => .ok { settings with input := words.headD "" } }

/-- A command line as far as the program itself reads it. -/
structure Call where
  /-- The command's settings, if there is a command. -/
  settings : Option Settings := none
  /-- The words that mean nothing to the command. -/
  extras : List String := []

def chooseCommand (words : List String) (call : Call) : Except Stop Call :=
  match words with
  | "convert" :: args => do
    let (settings, extras) ← convertGrammar.read {} args
    return { settings := some settings, extras }
  | name :: _ => .error (.misuse programName
      ("argument command: " ++ notAChoice (quoted name) [quoted "convert"]))
  | [] => .ok call

def mainGrammar : Grammar Call where
  program := programName
  switches := [
    helpSwitch programName,
    { names := ["--version"], takesArgument := false, stop := some .version }]
  positional := { name := "command", takesRest := true, isRequired := false, apply := chooseCommand }

/-- Reads a command line. Without a command there are no settings. -/
def readCall (args : List String) : Except Stop (Option Settings) := do
  let (call, extras) ← mainGrammar.read {} args
  match extras ++ call.extras with
  | [] => return call.settings
  | words => .error (.misuse programName ("unrecognized arguments: " ++ join " " words))

def helpText (program : String) : String :=
  join "\n" (if program = convertProgram then
    ["usage: " ++ program ++ " [switches] input", "",
      "Converts a TSX source file.", "",
      "  input                  path of the source file",
      "  -h, --help             show this help",
      "  -t, --target NAME      svelte or vue",
      "  -o, --out DIR          directory for the generated files",
      "  --all                  convert every component of the file",
      "  -c, --component NAME   the component to convert",
      "  --format               format the generated code",
      "  --prettier             format with prettier; implies --format",
      "  --svelte-version N     4 or 5",
      "  --no-typescript        write plain JavaScript",
      "  -p, --plugin NAME      run a plugin besides the usual ones (repeatable)",
      "  --config FILE          path of a configuration file",
      "  -v, --verbose          log more", ""]
  else
    ["usage: " ++ program ++ " [-h] [--version] convert ...", "",
      "Converts React TSX components to Svelte or Vue single-file components.", ""])

end Recast.Command
