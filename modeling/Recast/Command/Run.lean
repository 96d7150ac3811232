import Recast.Command.Settings
import Recast.Convert
import Recast.Options.Config

/-!
# Running the program

From a command line and what can be seen of the file tree to everything the program says and writes.
Nothing is written here: the texts to write are part of the outcome.
-/

set_option autoImplicit false

namespace Recast.Command

open Recast.Plugin (Registry)

inductive Message where
  | line (text : String)
  | summary (title : String) (columns : List String) (rows : List (List String))
  deriving DecidableEq, Repr

structure Outcome where
  exit : Nat := 0
  output : String := ""
  console : List Message := []
  errors : List String := []
  /-- The complaint about the command line, if any. -/
  complaint : Option String := none
  files : List (Path × String) := []
  deriving DecidableEq, Repr

/-- What the program finds around it. -/
structure Surroundings where
  files : Files
  offered : List Registry.EntryPoint := []
  /-- How other programs are run. -/
  runProgram : List String → String → Seconds → Format.ProgramRun := fun _ _ _ => .notFound

/-- The program that formats code on request. -/
def prettierCommand : List String := ["npx", "--no-install", "prettier"]

/-- A text with every line end written as one character. -/
def unifyLineEnds : List Char → List Char
  | [] => []
  | '\r' :: '\n' :: rest => '\n' :: unifyLineEnds rest
  | c :: rest => (if c = '\r' then '\n' else c) :: unifyLineEnds rest

namespace Settings

/-- Whether a text was given and is not empty. -/
def given? (s : Option String) : Option String := s.filter (· ≠ "")

/-- The options of a run: those of the configuration, with the settings on top. -/
def options (s : Settings) (files : Files) : Except Failure Options := do
  let base ← match given? s.config with
    | some name => Config.loadNamed files (Path.ofString name)
    | none => Config.loadNearest files (files.resolve (Path.ofString s.input)).parent
  reporting (base.merged {
    target := given? s.target
    svelteVersion := s.svelteVersion
    typescript := if s.noTypescript then some false else none
    emitFormatted := if s.format || s.prettier then some true else none })

/-- The places that a run may look at, apart from those it writes to. -/
def places (s : Settings) (resolvedInput : Path) : List Path :=
  let configs := match given? s.config with
    | some name => [Path.ofString name]
    | none => Config.searchPlaces resolvedInput.parent
  Path.ofString s.input :: configs ++ ((given? s.out).map Path.ofString).toList

/-- The registry of a run and the plugins that the settings name. -/
def namedPlugins (s : Settings) (offered : List Registry.EntryPoint) :
    Except Report (Registry × List Plugin) :=
  -- Plugins from outside are looked at only if some plugin is named.
  if s.plugins.isEmpty then .ok (Registry.builtin, [])
  else
    match Registry.builtin.loadEntryPoints offered with
    | (_, .error e) => .error e
    | (registry, .ok _) => do return (registry, ← s.plugins.mapM registry.get)

def conversions (s : Settings) (around : Surroundings) (source : String) :
    Except Failure (List Conversion) := do
  let options ← s.options around.files
  let (registry, extraPlugins) ← reporting (s.namedPlugins around.offered)
  let formatter :=
    if s.prettier then Format.external around.runProgram prettierCommand else Format.whitespace
  let converter : Converter := { options, registry, extraPlugins, formatter := some formatter }
  let path := some (Path.ofString s.input).toString
  if s.all then reporting (converter.convertAll { source, path })
  else
    return [← reporting (converter.convert { source, path, component := s.component })]

end Settings

/-! ## What is written and said -/

/-- Makes sure that a directory is there or can be made. -/
def checkDirectory (files : Files) (directory : Path) : Except Breakdown Unit :=
  match files.look directory with
  | .directory | .missing => .ok ()
  | .file _ => .error .fileInTheWay
  | .blocked => .error .notADirectory

/-- The places where successful conversions go, by component. -/
def destinations (files : Files) (directory : Path) (results : List Conversion) :
    Except Breakdown (List (Conversion × Path)) := do
  checkDirectory files directory
  (results.filter (·.success)).mapM fun result =>
    let place := directory.child result.filename
    if (files.look place).isDirectory then .error .isADirectory else .ok (result, place)

def summaryOf (results : List Conversion) (written : List (Conversion × Path)) : Message :=
  let row (r : Conversion) : List String :=
    let place := (written.find? fun entry => entry.1.component = r.component).map (·.2.toString)
    [r.component, r.target.name, if r.success then "[green]ok[/green]" else "[red]failed[/red]",
      place.getD r.filename, toString r.warnings.length]
  .summary ("Converted components (" ++ toString results.length ++ ")")
    ["Component", "Target", "Status", "Output", "Warnings"] (results.map row)

def warningMark : String := "[yellow]warning[/yellow] "

def deliver (s : Settings) (files : Files) (results : List Conversion) :
    Except Breakdown Outcome := do
  let directory := (Settings.given? s.out).map Path.ofString
  let written ← match directory with
    | some directory => destinations files directory results
    | none => pure []
  match directory, results with
  -- A single component without a directory goes to the output.
  | none, [result] =>
    if result.success then
      let lastLine := if Text.endsWith "\n" result.code then "" else "\n"
      return { output := result.code ++ lastLine, errors := result.warnings.map (warningMark ++ ·) }
    else return summarized results written
  | _, _ => return summarized results written
where
  summarized (results : List Conversion) (written : List (Conversion × Path)) : Outcome :=
    let warnings := results.flatMap fun r =>
      r.warnings.map fun w => Message.line (warningMark ++ r.component ++ ": " ++ w)
    { exit := if results.all (·.success) then 0 else 1
      console := summaryOf results written :: warnings
      files := written.map fun entry => (entry.2, entry.1.code) }

def failed (message : String) : Outcome :=
  { exit := 1, errors := ["[red]Error:[/red] " ++ message] }

def convertFile (around : Surroundings) (s : Settings) : Except Breakdown Outcome :=
  let input := Path.ofString s.input
  match (around.files.look input).read input with
  | .error reason => .ok (failed ("cannot read " ++ input.toString ++ ": " ++ reason))
  | .ok text =>
    match s.conversions around (String.ofList (unifyLineEnds text.toList)) with
    | .error (.broken b) => .error b
    | .error (.reported r) => .ok (failed r.format)
    | .ok results => deliver s around.files results

def run (around : Surroundings) (args : List String) : Except Breakdown Outcome :=
  match readCall args with
  | .error (.help program) => .ok { output := helpText program }
  | .error .version => .ok { output := programName ++ " " ++ version ++ "\n" }
  | .error (.misuse program message) =>
    .ok { exit := 2, complaint := some (program ++ ": error: " ++ message) }
  | .ok none => .ok { exit := 1, output := helpText programName }
  | .ok (some settings) => convertFile around settings

end Recast.Command
