/-!
# Shortest decimals

A binary fraction is written with the fewest decimal digits that lead back to it: among the decimals
closer to it than to its neighbours the one with the fewest digits, and of those the nearest. All
arithmetic is on natural numbers.
-/

set_option autoImplicit false

namespace Recast.Number

/-- The number `mantissa * 2 ^ exponent`. At the lower end of a binade the neighbour below is only
half as far away as the one above. -/
structure BinaryFraction where
  mantissa : Nat
  exponent : Int
  halfBelow : Bool
  deriving DecidableEq, Repr

/-- The number `digits * 10 ^ exponent`. -/
structure Decimal where
  digits : Nat
  exponent : Int
  deriving DecidableEq, Repr

/-- The power of a base as numerator and denominator. -/
def power (base : Nat) (exponent : Int) : Nat × Nat :=
  match exponent with
  | .ofNat n => (base.pow n, 1)
  | .negSucc n => (1, base.pow (n + 1))

namespace BinaryFraction

/-- A multiple of a quarter of the last place, as numerator and denominator. -/
def quarters (b : BinaryFraction) (n : Nat) : Nat × Nat :=
  let scale := power 2 (b.exponent - 2)
  (n * scale.1, scale.2)

/-- The ends of the interval of numbers that are nearer to the fraction than to its neighbours. -/
def ends (b : BinaryFraction) : (Nat × Nat) × (Nat × Nat) :=
  (b.quarters (4 * b.mantissa - if b.halfBelow then 1 else 2), b.quarters (4 * b.mantissa + 2))

def ratio (b : BinaryFraction) : Nat × Nat := b.quarters (4 * b.mantissa)

end BinaryFraction

def below (a b : Nat × Nat) : Bool := a.1 * b.2 < b.1 * a.2

/-- The distance of two ratios, over the product of their denominators. -/
def distance (a b : Nat × Nat) : Nat :=
  (a.1 * b.2 - b.1 * a.2) + (b.1 * a.2 - a.1 * b.2)

def Decimal.ratio (d : Decimal) : Nat × Nat :=
  let scale := power 10 d.exponent
  (d.digits * scale.1, scale.2)

/-- Whether a decimal leads back to the fraction. -/
def leadsBack (b : BinaryFraction) (d : Decimal) : Bool :=
  let (low, high) := b.ends
  -- The ends of the interval lead back if the mantissa is even.
  if b.mantissa % 2 = 0 then !below d.ratio low && !below high d.ratio
  else below low d.ratio && below d.ratio high

/-- The power of ten at or below a positive ratio. -/
def magnitude (r : Nat × Nat) : Int :=
  if r.2 ≤ r.1 then ((Nat.toDigits 10 (r.1 / r.2)).length : Int) - 1
  else
    let steps := ((List.range 400).find? fun k => r.2 ≤ r.1 * Nat.pow 10 k).getD 400
    Int.negOfNat steps

/-- The two neighbours of the fraction on the grid of decimals with `n` digits, nearer one first. -/
def gridNeighbours (b : BinaryFraction) (n : Nat) : List Decimal :=
  let r := b.ratio
  let exponent := magnitude r + 1 - n
  let scale := power 10 (-exponent)
  let floor := r.1 * scale.1 / (r.2 * scale.2)
  let lower : Decimal := ⟨floor, exponent⟩
  let upper : Decimal := ⟨floor + 1, exponent⟩
  let toLower := distance r lower.ratio
  let toUpper := distance r upper.ratio
  -- Of two at the same distance the even one comes first.
  if toLower < toUpper ∨ (toLower = toUpper ∧ floor % 2 = 0) then [lower, upper]
  else [upper, lower]

/-- The shortest decimal that leads back to a positive fraction. Seventeen digits always do. -/
def shortest (b : BinaryFraction) : Decimal :=
  ((List.range 17).findSome? fun n => (gridNeighbours b (n + 1)).find? (leadsBack b)).getD ⟨0, 0⟩

/-- A decimal without trailing zeros. Each step removes one digit, so the number of digits bounds
the steps. -/
def trimZeros : Nat → Decimal → Decimal
  | 0, d => d
  | n + 1, d =>
    if d.digits ≠ 0 ∧ d.digits % 10 = 0 then trimZeros n ⟨d.digits / 10, d.exponent + 1⟩ else d

/-- A positive decimal in text: positional with at least one place after the point while its point
lies between the fourth place before the first digit and the sixteenth digit, else with an exponent
of at least two digits. -/
def Decimal.show (d : Decimal) : String :=
  let d := trimZeros 20 d
  let digits := Nat.toDigits 10 d.digits
  let count : Int := digits.length
  let point : Int := count + d.exponent
  if point ≤ -4 ∨ 16 < point then
    let e := point - 1
    let size := Nat.toDigits 10 e.natAbs
    let size := if size.length < 2 then '0' :: size else size
    let mantissa := digits.take 1 ++ (if digits.length = 1 then [] else '.' :: digits.drop 1)
    String.ofList (mantissa ++ ['e', if e < 0 then '-' else '+'] ++ size)
  else if point ≤ 0 then
    String.ofList ("0.".toList ++ List.replicate (-point).toNat '0' ++ digits)
  else if count ≤ point then
    String.ofList (digits ++ List.replicate (point - count).toNat '0' ++ ".0".toList)
  else String.ofList (digits.take point.toNat ++ '.' :: digits.drop point.toNat)

inductive Reading where
  | finite (isNegative : Bool) (value : BinaryFraction)
  | infinite (isNegative : Bool)
  | notANumber
  deriving DecidableEq, Repr

/-- Reads the 64 bits of a floating point number: sign, eleven bits of exponent, and the fraction,
whose leading one is not written unless the exponent is the smallest. -/
def readBits (bits : Nat) : Reading :=
  let isNegative : Bool := bits / Nat.pow 2 63 % 2 = 1
  let exponent : Nat := bits / Nat.pow 2 52 % Nat.pow 2 11
  let fraction : Nat := bits % Nat.pow 2 52
  if exponent = Nat.pow 2 11 - 1 then if fraction = 0 then .infinite isNegative else .notANumber
  else if exponent = 0 then .finite isNegative ⟨fraction, -1074, false⟩
  else .finite isNegative
    ⟨Nat.pow 2 52 + fraction, (exponent : Int) - 1075, decide (fraction = 0 ∧ 1 < exponent)⟩

def showFloat (x : Float) : String :=
  match readBits x.toBits.toNat with
  | .notANumber => "nan"
  | .infinite isNegative => if isNegative then "-inf" else "inf"
  | .finite isNegative b =>
    let sign := if isNegative then "-" else ""
    sign ++ (if b.mantissa = 0 then "0.0" else (shortest b).show)

end Recast.Number
