import SandboxPool.Number.Shortest

/-!
# How numbers are written

`RealFormat` holds the choices a text format makes for floats; the two formats in use are
`diagnostic`, which turns to an exponent for very large and very small numbers, and `positional`,
which never does. Both always show a decimal point in positional notation.
-/

namespace SandboxPool.Number

/-- The choices of a text format for floats. Numbers whose first digit stands at a place from
`lowest` to `highest` are positional; without bounds all are. -/
structure RealFormat where
  positionalPlaces : Option (Int × Int)
  nan : String
  infinity : String
  deriving Repr

/-- Diagnostics: positional from a ten-thousandth to below ten quadrillions. -/
def diagnostic : RealFormat := ⟨some (-4, 15), "NaN", "inf"⟩

/-- Never an exponent. -/
def positional : RealFormat := ⟨none, "NaN", "inf"⟩

/-- Zeros. -/
def zeros (n : Nat) : List Char := List.replicate n '0'

/-- Digits with the point at its place; at least one digit stands on each side. -/
def Decimal.positional (d : Decimal) : String :=
  let digits := decimalDigits d.digits
  if 0 ≤ d.exponent then String.ofList (digits ++ zeros d.exponent.toNat ++ ['.', '0'])
  else
    let places := (-d.exponent).toNat
    let padded := zeros (places + 1 - digits.length) ++ digits
    let whole := padded.length - places
    String.ofList (padded.take whole ++ ['.'] ++ padded.drop whole)

/-- The place of the first digit. -/
def Decimal.place (d : Decimal) : Int :=
  d.exponent + (decimalDigits d.digits).length - 1

/-- One digit, the others after a point, and the power of ten. -/
def Decimal.scientific (d : Decimal) : String :=
  let digits := decimalDigits d.digits
  let mantissa := match digits with
    | [] => []
    | [c] => [c]
    | c :: rest => c :: '.' :: rest
  String.ofList mantissa ++ "e" ++ toString d.place

/-- A positive decimal in a text format. -/
def RealFormat.magnitude (f : RealFormat) (d : Decimal) : String :=
  match f.positionalPlaces with
  | none => d.positional
  | some (lowest, highest) =>
    if lowest ≤ d.place ∧ d.place ≤ highest then d.positional else d.scientific

/-- The text of a float given by its bits. The sign of zero shows, that of a NaN does not. -/
def RealFormat.render (f : RealFormat) (b : BinaryFormat) (bits : Nat) : String :=
  let sign (negative : Bool) (s : String) := if negative then "-" ++ s else s
  match b.decode bits with
  | .nan => f.nan
  | .infinite negative => sign negative f.infinity
  | .finite negative 0 _ => sign negative "0.0"
  | .finite negative m e => sign negative (f.magnitude (b.shortest m e))

end SandboxPool.Number
