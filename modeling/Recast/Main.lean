import Recast.Command.Run

/-!
# The program

Looks at the files that a command line is about, runs the command, and writes and prints its outcome.
-/

set_option autoImplicit false

namespace Recast.Program

open Recast.Command

/-- The code of the failure to go through a file. It is counted from either side of zero. -/
def notADirectoryCode : UInt32 := 20

def lookAt (p : Path) : IO Entry := do
  try
    return .file (← IO.FS.readFile p.toString)
  catch
    | .inappropriateType _ code _ =>
      return if code = notADirectoryCode ∨ code = 0 - notADirectoryCode then .blocked else .directory
    | _ => return .missing

/-- The anchored path to a place, or the path itself if the place is not there. -/
def resolve (p : Path) : IO Path := do
  try
    return Path.ofString (toString (← IO.FS.realPath p.toString))
  catch _ => return p

/-- What can be seen of the places that a command is about. -/
def filesFor (settings : Option Settings) : IO Files := do
  match settings with
  | none => return { look := fun _ => .missing, resolve := id }
  | some settings =>
    let input := Path.ofString settings.input
    let resolved ← resolve input
    let entries ← (settings.places resolved).mapM fun p => do return (p, ← lookAt p)
    return {
      look := fun p => (entries.lookup p).getD .missing
      resolve := fun p => if p = input then resolved else p }

/-- A text without the marks that colour it. -/
def plain (s : String) : String :=
  ["red", "green", "yellow"].foldl (fun s colour =>
    Text.replace ("[/" ++ colour ++ "]") "" (Text.replace ("[" ++ colour ++ "]") "" s)) s

def render : Message → String
  | .line s => plain s
  | .summary title columns rows =>
    Text.join "\n" (title :: (columns :: rows).map fun cells => Text.join "  " (cells.map plain))

def explain : Breakdown → String
  | .wrongType | .wrongShape => "the configuration section is not a table"
  | .outOfRange => "a number in the configuration is too large"
  | .fileInTheWay => "the output directory is a file"
  | .notADirectory => "a file is on the way to the output directory"
  | .isADirectory => "a directory is in the place of an output file"

def perform (directory : Option String) (o : Outcome) : IO Unit := do
  if !o.files.isEmpty then
    if let some directory := directory then IO.FS.createDirAll directory
  for (p, text) in o.files do
    IO.FS.writeFile p.toString text
  IO.print o.output
  for message in o.console do
    IO.println (render message)
  for line in o.errors do
    IO.eprintln (plain line)
  if let some complaint := o.complaint then IO.eprintln complaint

end Recast.Program

def main (args : List String) : IO UInt32 := do
  let settings := (Recast.Command.readCall args).toOption.bind id
  let files ← Recast.Program.filesFor settings
  match Recast.Command.run { files } args with
  | .error b =>
    IO.eprintln (Recast.Program.explain b)
    return 1
  | .ok outcome =>
    Recast.Program.perform (settings.bind (·.out)) outcome
    return outcome.exit.toUInt32
