import SandboxPool.Number.Binary

/-!
# The shortest decimal that reads back

A finite float has an interval of numbers that round to it, its ends included if the significand
is even. `shortest` looks through the decimal grids from one digit on: of the two neighbours of
the value on a grid it takes the nearer one inside the interval, and the first grid with such a
neighbour wins. Everything is exact arithmetic on natural numbers.
-/

namespace SandboxPool.Number

/-- The number `digits * 10 ^ exponent`. -/
structure Decimal where
  digits : Nat
  exponent : Int
  deriving Repr, DecidableEq

/-- Takes zeros off the end of the digits. -/
def Decimal.strip : (fuel : Nat) → Decimal → Decimal
  | 0, d => d
  | n + 1, d =>
    if d.digits ≠ 0 ∧ d.digits % 10 = 0 then Decimal.strip n ⟨d.digits / 10, d.exponent + 1⟩ else d

/-- The digits of a number in base ten. -/
def decimalDigits (n : Nat) : List Char :=
  Nat.toDigits 10 n

/-- The place of the first digit of `num / den`, both positive: the `e` with
`10 ^ e ≤ num / den < 10 ^ (e + 1)`. -/
def leadingPlace (num den : Nat) : Int :=
  if den ≤ num then (decimalDigits (num / den)).length - 1
  else
    let guess := (decimalDigits (den / num)).length
    if den ≤ num * Nat.pow 10 (guess - 1) then -((guess : Int) - 1) else -guess

/-- A value `num / den` with the ends of the interval that rounds to it, over the same
denominator. -/
structure Rounding where
  num : Nat
  den : Nat
  low : Nat
  high : Nat
  closed : Bool
  deriving Repr

/-- True of the numbers `num / den` inside the interval. -/
def Rounding.contains (r : Rounding) (num den : Nat) : Bool :=
  let a := num * r.den
  let low := r.low * den
  let high := r.high * den
  if r.closed then low ≤ a && a ≤ high else low < a && a < high

/-- The neighbour on the grid of multiples of `10 ^ place` that reads back, the nearer one if
both do; a tie goes to the even digit. -/
def Rounding.onGrid? (r : Rounding) (place : Int) : Option Decimal :=
  let up := Nat.pow 10 place.toNat
  let down := Nat.pow 10 (-place).toNat
  let below := r.num * down / (r.den * up)
  let remainder := r.num * down - below * (r.den * up)
  let lowOk := 0 < below && r.contains (below * up) down
  let highOk := r.contains ((below + 1) * up) down
  let nearLow := 2 * remainder < r.den * up || (2 * remainder = r.den * up && below % 2 = 0)
  if lowOk && (nearLow || !highOk) then some ⟨below, place⟩
  else if highOk then some ⟨below + 1, place⟩
  else none

/-- Tries the grids with `count` digits and more, `fuel` of them. -/
def Rounding.search (r : Rounding) (first : Int) : (fuel count : Nat) → Option Decimal
  | 0, _ => none
  | fuel + 1, count =>
    match r.onGrid? (first - count + 1) with
    | some d => some d
    | none => r.search first fuel (count + 1)

/-- The interval around `significand * 2 ^ exponent`. Below a power of two the neighbour is half
as far away, except at the smallest exponent. -/
def BinaryFormat.rounding (f : BinaryFormat) (significand : Nat) (exponent : Int) : Rounding :=
  let smallest : Int := 2 - (Nat.pow 2 (f.exponentBits - 1) : Nat) - f.fractionBits
  let narrow := significand = Nat.pow 2 f.fractionBits ∧ smallest < exponent
  let scale := Nat.pow 2 exponent.toNat
  let den := 4 * Nat.pow 2 (-exponent).toNat
  { num := 4 * significand * scale
    den := den
    low := (4 * significand - (if narrow then 1 else 2)) * scale
    high := (4 * significand + 2) * scale
    closed := significand % 2 = 0 }

/-- The shortest decimal that reads back as the positive number `significand * 2 ^ exponent`.
Every float has one of at most seventeen digits. -/
def BinaryFormat.shortest (f : BinaryFormat) (significand : Nat) (exponent : Int) : Decimal :=
  let r := f.rounding significand exponent
  match r.search (leadingPlace r.num r.den) 17 1 with
  | some d => d.strip 20
  | none => ⟨significand, exponent⟩

end SandboxPool.Number
