import Recast.Assoc
import Recast.Number.Read
import Recast.Options.Basic

/-!
# Options from tables

Reads a table of configuration values as options. Unknown keys are refused. Flags may be any value,
numbers may also be written as text.
-/

set_option autoImplicit false

namespace Recast

inductive NumberProblem where
  | unreadable (message : String)
  | outOfRange
  deriving DecidableEq, Repr

namespace Value

def toFloat : Value → Except NumberProblem Float
  | bool b => .ok (if b then 1.0 else 0.0)
  | int n => let x := Float.ofInt n; if x.isInf then .error .outOfRange else .ok x
  | float x => .ok x
  | text s =>
    match Number.readFloat? s with
    | some x => .ok x
    | none => .error (.unreadable ("could not convert string to float: " ++ Text.quoted s))
  | v => .error (.unreadable
      ("float() argument must be a string or a real number, not '" ++ v.kindName ++ "'"))

def toInt : Value → Except NumberProblem Int
  | bool b => .ok (if b then 1 else 0)
  | int n => .ok n
  | float x =>
    -- What comes after the point is dropped.
    match Number.truncate? x with
    | some n => .ok n
    | none =>
      if x.isNaN then .error (.unreadable "cannot convert float NaN to integer")
      else .error .outOfRange
  | text s =>
    match Number.readInt? s with
    | some n => .ok n
    | none =>
      let shown := String.ofList ((Text.quoted s).toList.take 200)
      .error (.unreadable ("invalid literal for int() with base 10: " ++ shown))
  | v => .error (.unreadable
      ("int() argument must be a string, a bytes-like object or a real number, not '" ++
        v.kindName ++ "'"))

/-- The entries of a table. Whatever counts as false is read as an empty table. -/
def entries? : Value → Option (Assoc Value)
  | table entries => some entries
  | v => if v.isTrue then none else some []

end Value

namespace Options

def knownKeys : List String := [
  "target", "typescript", "emit_formatted", "class_merge_import_path", "format_timeout",
  "normalize_primitives", "svelte", "vue"]

/-- The keys of a table that mean nothing, in ascending order. -/
def unknownKeys (data : Assoc Value) : List String :=
  (data.keys.filter (!knownKeys.contains ·)).mergeSort (· ≤ ·)

def refuse (source : Option String) (message : String) : Failure :=
  .reported (Report.atPath .config message source)

def number {α : Type} (source : Option String) : Except NumberProblem α → Except Failure α
  | .ok a => .ok a
  | .error .outOfRange => .error (.broken .outOfRange)
  | .error (.unreadable message) =>
    .error (refuse source ("Invalid configuration value: " ++ message))

/-- A flag of a table, or what it is without one. -/
def flag (data : Assoc Value) (key : String) (default : Bool) : Bool :=
  (data.get? key).elim default Value.isTrue

def subtable? (data : Assoc Value) (key : String) : Option (Assoc Value) :=
  (data.get? key).elim (some []) Value.entries?

def ofTable (data : Assoc Value) (source : Option String := none) : Except Failure Options := do
  let unknown := unknownKeys data
  if !unknown.isEmpty then
    throw (refuse source ("Unknown configuration keys: " ++ Text.join ", " unknown))
  match subtable? data "svelte", subtable? data "vue" with
  | some svelte, some vue =>
    let timeout ← number source (((data.get? "format_timeout").getD (.float 10.0)).toFloat)
    let version ← number source (((svelte.get? "version").getD (.int 5)).toInt)
    let target ← reporting
      (((data.get? "target").map fun v => Target.parse v.display).getD (.ok .svelte))
    reporting (check {
      target
      typescript := flag data "typescript" true
      emitFormatted := flag data "emit_formatted" false
      classMergeImport := (data.get? "class_merge_import_path").getD .null
      svelte := { version, useRunes := flag svelte "use_runes" true }
      vue := { scriptSetup := flag vue "script_setup" true }
      formatTimeout := .real timeout
      normalizePrimitives := flag data "normalize_primitives" true })
  | _, _ => throw (refuse source "'svelte' and 'vue' must be tables")

end Options

end Recast
