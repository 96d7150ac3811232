import Recast.Number.Read
import Recast.Options.Value
import Recast.Toml.Text

/-!
# Numbers, dates and times

Recognizers for the values that need no quotes and no brackets. Each one takes the longest text that
it knows off the front.
-/

set_option autoImplicit false

namespace Recast.Toml

open Recast.Text

/-! ## Numbers -/

/-- Digits after the first one, where an underscore may stand in front of each. -/
def moreDigits (value? : Char → Option Nat) : List Char → List Nat × List Char
  | '_' :: c :: rest =>
    match value? c with
    | some d => let (ds, tail) := moreDigits value? rest; (d :: ds, tail)
    | none => ([], '_' :: c :: rest)
  | c :: rest =>
    match value? c with
    | some d => let (ds, tail) := moreDigits value? rest; (d :: ds, tail)
    | none => ([], c :: rest)
  | [] => ([], [])

/-- Digits, at least one, with single underscores between them. -/
def digits? (value? : Char → Option Nat) : List Char → Option (List Nat × List Char)
  | c :: rest => (value? c).map fun d => let (ds, tail) := moreDigits value? rest; (d :: ds, tail)
  | [] => none

def digitBelow? (base : Nat) (c : Char) : Option Nat := (hexValue? c).filter (· < base)

/-- A whole number in base two, eight or sixteen. -/
def basedNumber? : List Char → Option (Value × List Char)
  | '0' :: mark :: rest => do
    let base ← match mark with
      | 'x' => some 16
      | 'b' => some 2
      | 'o' => some 8
      | _ => none
    let (ds, tail) ← digits? (digitBelow? base) rest
    return (.int (Number.digitsValue base ds), tail)
  | _ => none

/-- The part of a number before its point: no zero in front of other digits. -/
def wholePart? : List Char → Option (List Nat × List Char)
  | '0' :: rest => some ([0], rest)
  | cs => digits? (digitBelow? 10) cs

def fractionPart? : List Char → Option (List Nat × List Char)
  | '.' :: rest => digits? (digitBelow? 10) rest
  | _ => none

def exponentPart? : List Char → Option (Int × List Char)
  | c :: rest =>
    if c = 'e' ∨ c = 'E' then
      let (isNegative, rest) := Number.splitSign rest
      (digits? (digitBelow? 10) rest).map fun (ds, tail) =>
        (Number.withSign isNegative (Number.digitsValue 10 ds), tail)
    else none
  | [] => none

def decimalNumber? (cs : List Char) : Option (Value × List Char) := do
  let (isNegative, cs) := Number.splitSign cs
  let (whole, rest) ← wholePart? cs
  let (fraction, rest') := (fractionPart? rest).getD ([], rest)
  let (exponent, rest'') := (exponentPart? rest').getD (0, rest')
  -- Without fraction and exponent the number is whole.
  if rest''.length = rest.length then
    return (.int (Number.withSign isNegative (Number.digitsValue 10 whole)), rest)
  let decimal : Number.Decimal :=
    ⟨Number.digitsValue 10 (whole ++ fraction), exponent - (fraction.length : Int)⟩
  let x := decimal.toFloat
  return (.float (if isNegative then -x else x), rest'')

def specialNumber? (cs : List Char) : Option (Value × List Char) := do
  let (isNegative, cs) := Number.splitSign cs
  let (x, rest) ←
    ((after? "inf".toList cs).map ((1.0 / 0.0 : Float), ·)) <|>
      ((after? "nan".toList cs).map ((0.0 / 0.0 : Float), ·))
  return (.float (if isNegative then -x else x), rest)

def number? (cs : List Char) : Option (Value × List Char) :=
  basedNumber? cs <|> decimalNumber? cs <|> specialNumber? cs

/-! ## Dates and times -/

/-- A number of exactly so many digits within bounds. -/
def fixed? (count low high : Nat) (cs : List Char) : Option (Nat × List Char) :=
  let ds := (cs.take count).filterMap (digitBelow? 10)
  let n := Number.digitsValue 10 ds
  if ds.length = count ∧ low ≤ n ∧ n ≤ high then some (n, cs.drop count) else none

def padded (width n : Nat) : String :=
  let ds := Nat.toDigits 10 n
  String.ofList (List.replicate (width - ds.length) '0' ++ ds)

structure Day where
  year : Nat
  month : Nat
  day : Nat
  deriving DecidableEq, Repr

namespace Day

def isLeap (year : Nat) : Bool := year % 4 = 0 && (year % 100 ≠ 0 || year % 400 = 0)

def daysIn (year month : Nat) : Nat :=
  if month = 2 then if isLeap year then 29 else 28
  else if [4, 6, 9, 11].contains month then 30 else 31

/-- Whether the calendar has the day. Years start at one. -/
def onCalendar (d : Day) : Bool := 1 ≤ d.year && d.day ≤ daysIn d.year d.month

def «show» (d : Day) : String := padded 4 d.year ++ "-" ++ padded 2 d.month ++ "-" ++ padded 2 d.day

def read? (cs : List Char) : Option (Day × List Char) := do
  let (year, cs) ← fixed? 4 0 9999 cs
  let (month, cs) ← fixed? 2 1 12 (← after? ['-'] cs)
  let (day, cs) ← fixed? 2 1 31 (← after? ['-'] cs)
  return (⟨year, month, day⟩, cs)

end Day

structure Clock where
  hour : Nat
  minute : Nat
  second : Nat
  micros : Nat
  deriving DecidableEq, Repr

namespace Clock

def «show» (c : Clock) : String :=
  padded 2 c.hour ++ ":" ++ padded 2 c.minute ++ ":" ++ padded 2 c.second ++
    (if c.micros = 0 then "" else "." ++ padded 6 c.micros)

/-- The millionths of a second after a point, as far as six digits say. -/
def micros? : List Char → Option (Nat × List Char)
  | '.' :: rest =>
    match rest.takeWhile Char.isDigit with
    | [] => none
    | ds =>
      let shown := (ds.take 6 ++ List.replicate 6 '0').take 6
      some (Number.digitsValue 10 (shown.filterMap (digitBelow? 10)), rest.dropWhile Char.isDigit)
  | _ => none

def read? (cs : List Char) : Option (Clock × List Char) := do
  let (hour, cs) ← fixed? 2 0 23 cs
  let (minute, cs) ← fixed? 2 0 59 (← after? [':'] cs)
  let (second, cs) ← fixed? 2 0 59 (← after? [':'] cs)
  let (micros, cs) := (micros? cs).getD (0, cs)
  return (⟨hour, minute, second, micros⟩, cs)

end Clock

/-- The distance of a local time from universal time, as it is shown. -/
def offset? : List Char → Option (String × List Char)
  | [] => none
  | c :: rest =>
    if c = 'Z' ∨ c = 'z' then some ("+00:00", rest)
    else if c = '+' ∨ c = '-' then do
      let (hour, rest) ← fixed? 2 0 23 rest
      let (minute, rest) ← fixed? 2 0 59 (← after? [':'] rest)
      -- A distance of zero is shown as one ahead.
      let sign := if hour = 0 ∧ minute = 0 then "+" else c.toString
      return (sign ++ padded 2 hour ++ ":" ++ padded 2 minute, rest)
    else none

/-- The time that follows a date, as it is shown. -/
def timeOfDay? : List Char → Option (String × List Char)
  | [] => none
  | c :: rest =>
    if c = 'T' ∨ c = 't' ∨ c = ' ' then do
      let (clock, rest) ← Clock.read? rest
      let (offset, rest) := (offset? rest).getD ("", rest)
      return (clock.show ++ offset, rest)
    else none

/-- A date, a time, or both. -/
def moment? (cs : List Char) : Option (Option Value × List Char) :=
  match Day.read? cs with
  | some (day, rest) =>
    let found :=
      match timeOfDay? rest with
      | some (time, rest) => (Value.moment .dateTime (day.show ++ " " ++ time), rest)
      | none => (.moment .date day.show, rest)
    -- A date that the calendar does not have gives nothing to show.
    some (if day.onCalendar then some found.1 else none, found.2)
  | none => (Clock.read? cs).map fun (clock, rest) => (some (.moment .time clock.show), rest)

def readScalar? : Reader (Option Value) := do
  let start ← get
  match ← Reader.recognized? moment? with
  | some (some v) => return some v
  | some none => set start; Reader.fail .invalidDate
  | none => Reader.recognized? number?

end Recast.Toml
