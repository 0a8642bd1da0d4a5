/-!
# Floating-point numbers as bit patterns

A float crosses every boundary of this library as its bits. `BinaryFormat` says how many bits
hold the fraction and the exponent; `BinaryFormat.decode` sorts a pattern into the classes that
printing and comparison tell apart, and a finite one into `significand * 2 ^ exponent`.
-/

namespace SandboxPool.Number

/-- A binary interchange format. -/
structure BinaryFormat where
  fractionBits : Nat
  exponentBits : Nat
  deriving Repr, DecidableEq

/-- Thirty-two bits. -/
def single : BinaryFormat := ⟨23, 8⟩

/-- Sixty-four bits. -/
def double : BinaryFormat := ⟨52, 11⟩

/-- What a pattern stands for; `negative` is its sign bit. -/
inductive Real where
  | nan
  | infinite (negative : Bool)
  | finite (negative : Bool) (significand : Nat) (exponent : Int)
  deriving Repr, DecidableEq

/-- The number a bit pattern stands for. Patterns with exponent field zero have no hidden bit. -/
def BinaryFormat.decode (f : BinaryFormat) (bits : Nat) : Real :=
  let hidden := Nat.pow 2 f.fractionBits
  let fields := Nat.pow 2 f.exponentBits
  let fraction := bits % hidden
  let field := bits / hidden % fields
  let negative := bits / (hidden * fields) % 2 = 1
  let bias : Int := (fields / 2 : Nat) - 1 + f.fractionBits
  if field = fields - 1 then
    if fraction = 0 then .infinite negative else .nan
  else if field = 0 then .finite negative fraction (1 - bias)
  else .finite negative (hidden + fraction) (field - bias)

/-- Compares two finite numbers or infinities; none if one of them is no number. -/
def Real.compare? : Real → Real → Option Ordering
  | .nan, _ => none
  | _, .nan => none
  | .infinite n, .infinite m => some (compare (if n then 0 else 1) (if m then 0 else 1))
  | .infinite n, .finite .. => some (if n then .lt else .gt)
  | .finite .., .infinite m => some (if m then .gt else .lt)
  | .finite n s e, .finite m t f =>
    let low := min e f
    let a : Int := s * Nat.pow 2 (e - low).toNat
    let b : Int := t * Nat.pow 2 (f - low).toNat
    some (compare (if n then -a else a) (if m then -b else b))

end SandboxPool.Number
