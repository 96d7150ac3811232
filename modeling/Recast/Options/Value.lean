import Recast.Number.Shortest
import Recast.Text.Quoted
import Recast.Text.Search

/-!
# Configuration values

Values as configuration files and callers give them, before they are read as options. What counts as
true and how a value is shown in a message are rules of this one type.
-/

set_option autoImplicit false

namespace Recast

inductive MomentKind where
  | date
  | time
  | dateTime
  deriving DecidableEq, Repr

inductive Value where
  | null
  | bool (b : Bool)
  | int (n : Int)
  | float (x : Float)
  | text (s : String)
  | list (items : List Value)
  | table (entries : List (String × Value))
  /-- A date or a time, kept as it is shown. -/
  | moment (kind : MomentKind) (s : String)
  deriving Inhabited

namespace Value

/-- Zeros and everything empty count as false, all else as true. -/
def isTrue : Value → Bool
  | null => false
  | bool b => b
  | int n => n != 0
  | float x => x != 0.0
  | text s => s != ""
  | list items => !items.isEmpty
  | table entries => !entries.isEmpty
  | moment _ _ => true

mutual
/-- The value as it is shown inside another one, where text is quoted. -/
def inspect : Value → String
  | null => "None"
  | bool b => if b then "True" else "False"
  | int n => toString n
  | float x => Number.showFloat x
  | text s => Text.quoted s
  | list items => "[" ++ Text.join ", " (inspectItems items) ++ "]"
  | table entries => "\x7b" ++ Text.join ", " (inspectEntries entries) ++ "\x7d"
  | moment _ s => s
def inspectItems : List Value → List String
  | [] => []
  | v :: vs => inspect v :: inspectItems vs
def inspectEntries : List (String × Value) → List String
  | [] => []
  | (key, v) :: rest => (Text.quoted key ++ ": " ++ inspect v) :: inspectEntries rest
end

/-- The value as it is shown on its own, where text stands for itself. -/
def display : Value → String
  | text s => s
  | v => inspect v

/-- What the kind of a value is called in messages. -/
def kindName : Value → String
  | null => "NoneType"
  | bool _ => "bool"
  | int _ => "int"
  | float _ => "float"
  | text _ => "str"
  | list _ => "list"
  | table _ => "dict"
  | moment .date _ => "datetime.date"
  | moment .time _ => "datetime.time"
  | moment .dateTime _ => "datetime.datetime"

end Value

end Recast
