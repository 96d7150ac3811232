/-!
# Errors

Every failure a caller can see is reported in one shape: what happened, where, under which code, and
what to do about it.
-/

set_option autoImplicit false

namespace Recast

inductive ErrorKind where
  | general
  | sourceSyntax
  | unsupportedTarget
  | variantConfig
  | invalidNode
  | pluginConfig
  | pluginRegistry
  | componentNotFound
  | config
  /-- A configuration file that cannot be read as a table. -/
  | malformedConfig
  | unhandledNode
  deriving DecidableEq, Repr

namespace ErrorKind

def code : ErrorKind → Option String
  | .sourceSyntax => some "CC001"
  | .unsupportedTarget => some "CC002"
  | .variantConfig => some "CC003"
  | .invalidNode => some "CC004"
  | .pluginConfig => some "CC005"
  | .componentNotFound => some "CC006"
  | .config | .malformedConfig => some "CC007"
  | .general | .pluginRegistry | .unhandledNode => none

/-- The hint that every failure of a kind carries unless it brings its own. -/
def hint : ErrorKind → Option String
  | .unsupportedTarget => some "Supported targets are 'svelte' and 'vue'."
  | _ => none

end ErrorKind

/-- A place in a file. Each part may be unknown. -/
structure Location where
  path : Option String := none
  line : Option Int := none
  column : Option Int := none
  deriving DecidableEq, Repr

/-- The place in words, if anything is known about it. -/
def Location.describe? (loc : Location) : Option String :=
  -- An empty path counts as unknown.
  let path := loc.path.filter (· ≠ "")
  match path, loc.line, loc.column with
  | some p, some l, some c => some s!"{p}:{l}:{c}"
  | none, some l, some c => some s!"line {l}, column {c}"
  | some p, _, _ => some p
  | none, _, _ => none

def Location.describe (loc : Location) : String := loc.describe?.getD "unknown location"

structure Report where
  kind : ErrorKind
  message : String
  location : Location := {}
  code : Option String := kind.code
  hint : Option String := kind.hint
  deriving DecidableEq, Repr

namespace Report

def atPath (kind : ErrorKind) (message : String) (path : Option String) : Report :=
  { kind, message, location := { path } }

/-- The parenthesis after the message: the place and the code, as far as known. -/
def details (r : Report) : List String :=
  (r.location.describe?.filter (· ≠ "unknown location")).toList ++ (r.code.filter (· ≠ "")).toList

def format (r : Report) : String :=
  let head :=
    match r.details with
    | [] => r.message
    | details => r.message ++ " (" ++ "; ".intercalate details ++ ")"
  let hint := (r.hint.filter (· ≠ "")).map ("Hint: " ++ ·)
  " ".intercalate (([head] ++ hint.toList).filter (· ≠ ""))

end Report

/-- Ways to end without a report. -/
inductive Breakdown where
  /-- A value of another kind stands where entries are needed. -/
  | wrongType
  /-- A list or a text stands where entries are needed and does not consist of pairs. -/
  | wrongShape
  | outOfRange
  /-- A file stands where a directory is to be made. -/
  | fileInTheWay
  /-- A file stands on the way to a place. -/
  | notADirectory
  /-- A directory stands where a file is to be written. -/
  | isADirectory
  deriving DecidableEq, Repr

/-- How an attempt fails: with a report, or by breaking down. -/
inductive Failure where
  | reported (r : Report)
  | broken (b : Breakdown)
  deriving DecidableEq, Repr

/-- An attempt whose failures are all reported. -/
def reporting {α : Type} : Except Report α → Except Failure α := Except.mapError .reported

end Recast
