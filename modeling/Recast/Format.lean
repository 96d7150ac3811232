import Recast.Options.Basic
import Recast.Text.Blank
import Recast.Text.Search

/-!
# Formatting

Formatters turn generated text into tidier text. A formatter that fails, takes too long or delivers
nothing leaves the text as it was and a warning.
-/

set_option autoImplicit false

namespace Recast.Format

open Recast.Text

inductive Outcome where
  | text (s : String)
  /-- The formatter finished without a text. -/
  | nothing
  | failed (message : String)
  | late
  deriving DecidableEq, Repr

abbrev Formatter := String → Target → Outcome

def run (formatter : Formatter) (text : String) (target : Target)
    (limit : Seconds := .real 10.0) : String × List String :=
  match formatter text target with
  | .text s => (s, [])
  | .nothing => (text, ["Formatter returned no text, returning unformatted output"])
  | .failed message => (text, ["Formatting failed, returning unformatted output: " ++ message])
  | .late =>
    (text, ["Formatting timed out after " ++ limit.show ++ "s, returning unformatted output"])

/-! ## White space -/

structure Whitespace where
  maxEmptyLines : Int := 1
  trimsLines : Bool := true
  endsWithNewline : Bool := true
  deriving DecidableEq, Repr

def isBlankLine (line : List Char) : Bool := line.all isBlank

/-- Drops blank lines beyond a number in a row. `seen` counts those in front. -/
def limitBlankLines (limit : Int) (seen : Int) : List (List Char) → List (List Char)
  | [] => []
  | line :: rest =>
    if isBlankLine line then
      if seen + 1 ≤ limit then line :: limitBlankLines limit (seen + 1) rest
      else limitBlankLines limit (seen + 1) rest
    else line :: limitBlankLines limit 0 rest

def tidy (w : Whitespace) (text : List Char) : List Char :=
  let lines := splitChar '\n' text
  let lines := if w.trimsLines then lines.map (dropEndWhile isBlank) else lines
  let body := trimWhile (· == '\n') (joinChars ['\n'] (limitBlankLines w.maxEmptyLines 0 lines))
  if w.endsWithNewline then body ++ ['\n'] else body

def whitespace (w : Whitespace := {}) : Formatter := fun text _ =>
  .text (String.ofList (tidy w text.toList))

/-! ## External programs -/

inductive ProgramRun where
  | notFound
  | late
  | exited (code : Int) (output errors : String)
  deriving DecidableEq, Repr

/-- The formatter that hands the text to an external program, given how programs are run. -/
def external (runProgram : List String → String → Seconds → ProgramRun) (command : List String)
    (limit : Seconds := .real 10.0) : Formatter := fun text target =>
  -- The target is passed as the parser to use.
  match runProgram (command ++ ["--parser", target.name]) text limit with
  | .notFound => .failed (command.headD "" ++ " is not available on PATH")
  | .late => .failed ("prettier timed out after " ++ limit.show ++ "s")
  | .exited code output errors =>
    if code = 0 then .text output
    else
      let message := strip errors
      .failed (if message = "" then "prettier exited with " ++ toString code else message)

end Recast.Format
