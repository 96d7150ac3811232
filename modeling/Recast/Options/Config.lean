import Recast.Options.Read
import Recast.Path
import Recast.Toml.Document

/-!
# Configuration files

Where options are found: in a file that is named, or in the nearest one above a place. A project file
that serves other tools too counts only if it has a section for this one.
-/

set_option autoImplicit false

namespace Recast.Config

/-- The name of a file that holds nothing but options. -/
def ownFile : String := "component-converter.toml"

/-- The name of a file that serves many tools. -/
def sharedFile : String := "pyproject.toml"

def sharedSection : List String := ["tool", "component-converter"]

def readTable (files : Files) (p : Path) : Except Failure (Assoc Value) :=
  let refused (kind : ErrorKind) (reason : String) : Failure :=
    .reported (Report.atPath kind
      ("Failed to read " ++ p.toString ++ ": " ++ reason) (some p.toString))
  match (files.look p).read p with
  | .error reason => .error (refused .config reason)
  | .ok text =>
    match Toml.read text with
    | .error reason => .error (refused .malformedConfig reason)
    | .ok table => .ok table

/-! ## Sections -/

/-- The value at a name with several parts. -/
def valueAt : List String → Value → Value
  | [], v => v
  | key :: rest, .table entries => valueAt rest ((Assoc.get? key entries).getD (.table []))
  -- Where a part is missing there is an empty table.
  | _ :: rest, _ => valueAt rest (.table [])

/-- A value as a pair of a key and a value: a list of two, a text of two characters, or the two keys
of a table. -/
def asPair : Value → Except Breakdown (Value × Value)
  | .list [key, v] => .ok (key, v)
  | .text s =>
    match s.toList with
    | [a, b] => .ok (.text a.toString, .text b.toString)
    | _ => .error .wrongShape
  | .table [(a, _), (b, _)] => .ok (.text a, .text b)
  | .list _ | .table _ => .error .wrongShape
  | _ => .error .wrongType

def asEntry (v : Value) : Except Breakdown (Value × Value) := do
  let (key, v) ← asPair v
  match key with
  | .list _ | .table _ => .error .wrongType
  | key => .ok (key, v)

def withTextKey : Value × Value → Except Breakdown (String × Value)
  | (.text key, v) => .ok (key, v)
  | _ => .error .wrongType

/-- A value as the entries of a table. -/
def asEntries : Value → Except Breakdown (Assoc Value)
  | .table entries => .ok entries
  -- A list may consist of pairs.
  | .list items => do
    let entries ← items.mapM asEntry
    return Assoc.ofEntries (← entries.mapM withTextKey)
  | .text s => if s = "" then .ok [] else .error .wrongShape
  | _ => .error .wrongType

def optionsTable (p : Path) (table : Assoc Value) : Except Failure (Assoc Value) :=
  if p.name = sharedFile then (asEntries (valueAt sharedSection (.table table))).mapError .broken
  else .ok table

/-! ## Finding -/

def findIn? (files : Files) (directory : Path) : Except Failure (Option Path) := do
  let own := directory.child ownFile
  if (files.look own).isPresent then return some own
  let shared := directory.child sharedFile
  if (files.look shared).isPresent then
    let table ← optionsTable shared (← readTable files shared)
    if !table.isEmpty then return some shared
  return none

def firstIn? (files : Files) : List Path → Except Failure (Option Path)
  | [] => return none
  | directory :: rest => do
    match ← findIn? files directory with
    | some p => return some p
    | none => firstIn? files rest

/-- The directories that are searched from a place: it, or the one above if it is none, and all
above. -/
def searched (files : Files) (start : Path) : List Path :=
  (if (files.look start).isDirectory then start else start.parent).ascent

def find? (files : Files) (start : Path) : Except Failure (Option Path) :=
  firstIn? files (searched files start)

def searchPlaces (start : Path) : List Path :=
  start :: start.ascent.flatMap fun directory =>
    [directory.child ownFile, directory.child sharedFile]

/-! ## Loading -/

def loadFile (files : Files) (p : Path) : Except Failure Options := do
  Options.ofTable (← optionsTable p (← readTable files p)) (some p.toString)

/-- Reads the options in a file that has to be there. -/
def loadNamed (files : Files) (p : Path) : Except Failure Options :=
  if (files.look p).isPresent then loadFile files p
  else
    .error (.reported (Report.atPath .config
      ("Configuration file not found: " ++ p.toString) (some p.toString)))

/-- Reads the options in the nearest configuration file at or above a place. Without one the options
are the usual ones. -/
def loadNearest (files : Files) (start : Path) : Except Failure Options := do
  match ← find? files start with
  | some p => loadFile files p
  | none => return {}

end Recast.Config
