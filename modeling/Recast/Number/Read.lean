import Recast.Number.Shortest
import Recast.Text.Blank
import Recast.Text.Digit

/-!
# Reading numbers

Whole numbers and decimals as people write them: with blanks around them, a sign, digits of any
script, and single underscores between digits.
-/

set_option autoImplicit false

namespace Recast.Number

open Recast.Text

/-- The blanks that may stand around a number: all but the control characters that separate
records. -/
def isMargin (c : Char) : Bool := isBlank c && !(0x1c ≤ c.toNat && c.toNat < 0x20)

/-- Drops the underscores that stand between two digits, where `inDigits` tells whether the
character before is a digit. -/
def dropUnderscores? (inDigits : Bool) : List Char → Option (List Char)
  | [] => some []
  | '_' :: c :: rest =>
    if inDigits ∧ isDigit c then (dropUnderscores? true rest).map (c :: ·) else none
  -- Any other underscore is refused.
  | c :: rest =>
    if c = '_' then none else (dropUnderscores? (isDigit c) rest).map (c :: ·)

/-- The characters of a number, without margins and without underscores between digits. -/
def numeral? (s : String) : Option (List Char) :=
  dropUnderscores? false (trimWhile isMargin s.toList)

def splitSign : List Char → Bool × List Char
  | '-' :: rest => (true, rest)
  | '+' :: rest => (false, rest)
  | cs => (false, cs)

/-- The number that digits stand for, most significant first. -/
def digitsValue (base : Nat) (digits : List Nat) : Nat :=
  digits.foldl (fun n d => n * base + d) 0

/-- The digits at the front, by value, and the rest. -/
def splitDigits : List Char → List Nat × List Char
  | [] => ([], [])
  | c :: rest =>
    match digitValue? c with
    | some d => let (ds, tail) := splitDigits rest; (d :: ds, tail)
    | none => ([], c :: rest)

def withSign (isNegative : Bool) (n : Nat) : Int := if isNegative then -(n : Int) else n

def readInt? (s : String) : Option Int := do
  let (isNegative, digits) := splitSign (← numeral? s)
  match splitDigits digits with
  | (ds@(_ :: _), []) => return withSign isNegative (digitsValue 10 ds)
  | _ => none

/-- Reads the exponent of a decimal. A text without one has the exponent zero. -/
def readExponent? : List Char → Option Int
  | [] => some 0
  | c :: rest =>
    if c = 'e' ∨ c = 'E' then
      let (isNegative, digits) := splitSign rest
      match splitDigits digits with
      | (ds@(_ :: _), []) => some (withSign isNegative (digitsValue 10 ds))
      | _ => none
    else none

/-- Reads an unsigned decimal: digits with at most one point among them, at least one digit, and
perhaps an exponent. -/
def readDecimal? (cs : List Char) : Option Decimal :=
  let (whole, rest) := splitDigits cs
  let (fraction, rest) :=
    match rest with
    | '.' :: tail => splitDigits tail
    | _ => ([], rest)
  if whole.isEmpty ∧ fraction.isEmpty then none
  else
    (readExponent? rest).map fun e =>
      ⟨digitsValue 10 (whole ++ fraction), e - (fraction.length : Int)⟩

/-- The floating point number nearest to a decimal. -/
def Decimal.toFloat (d : Decimal) : Float :=
  let point : Int := (Nat.toDigits 10 d.digits).length + d.exponent
  -- Decimals far beyond the range are decided by their magnitude alone.
  if d.digits = 0 ∨ point < -400 then 0.0
  else if 400 < point then 1.0 / 0.0
  else Float.ofScientific d.digits (d.exponent < 0) d.exponent.natAbs

/-- Reads a floating point number: a decimal, or a name of infinity or of no number at all. -/
def readFloat? (s : String) : Option Float := do
  let (isNegative, cs) := splitSign (← numeral? s)
  let value ←
    match String.ofList (cs.map Char.toLower) with
    | "inf" | "infinity" => some (1.0 / 0.0)
    | "nan" => some (0.0 / 0.0)
    | _ => (readDecimal? cs).map Decimal.toFloat
  return if isNegative then -value else value

/-- The whole number that a floating point number has in front of its point, unless it is infinite
or no number. -/
def truncate? (x : Float) : Option Int :=
  match readBits x.toBits.toNat with
  | .finite isNegative b => let (n, d) := b.ratio; some (withSign isNegative (n / d))
  | _ => none

end Recast.Number
