import SandboxPool.Wire.Input
import SandboxPool.Wire.Problem

/-!
# Variable-length integers and field keys

An integer is written seven bits to a byte, the lowest first; the high bit says that more
follow. A 64-bit number takes at most ten bytes, of which the last may only be 0 or 1. A key
joins a field's tag with the wire type of the value after it.
-/

namespace SandboxPool.Wire

/-- Writes the low seven bits and goes on while anything is left, for at most `fuel` more
bytes. -/
def writeVarintFrom : (fuel n : Nat) → List UInt8
  | 0, n => [UInt8.ofNat n]
  | fuel + 1, n =>
    if n < 128 then [UInt8.ofNat n]
    else UInt8.ofNat (n % 128 + 128) :: writeVarintFrom fuel (n / 128)

/-- The bytes of a number below `2 ^ 64`. -/
def writeVarint (n : Nat) : List UInt8 := writeVarintFrom 9 n

/-- The number of bytes of a number below `2 ^ 64`, seven bits to a byte: its bits are counted, and
`9 / 64` stands for a seventh. -/
def varintLength (n : Nat) : Nat := (Nat.log2 (n ||| 1) * 9 + 73) / 64

/-- Reads the bytes from number `9 - fuel` on, the first of which counts `scale` times. -/
def readVarintFrom : (fuel scale value : Nat) → Input → Result (Nat × Input)
  | fuel, scale, value, i =>
    match i.next? with
    | none => fail .badVarint
    | some (b, rest) =>
      if b < 0x80 then
        if fuel = 0 ∧ 1 < b then fail .badVarint else .ok (value + b.toNat * scale, rest)
      else match fuel with
        | 0 => fail .badVarint
        | fuel + 1 => readVarintFrom fuel (scale * 128) (value + (b.toNat - 128) * scale) rest

/-- Reads a number below `2 ^ 64`. -/
def readVarint (i : Input) : Result (Nat × Input) := readVarintFrom 9 1 0 i

/-- A field's tag and the layout of its value. -/
structure Key where
  tag : Nat
  wireType : WireType
  deriving Repr, DecidableEq

/-- The bytes of a key. -/
def Key.write (k : Key) : List UInt8 := writeVarint (k.tag * 8 + k.wireType.code)

/-- The number of bytes of a key with a tag; the wire type makes no difference. -/
def keyLength (tag : Nat) : Nat := varintLength (tag * 8)

/-- Reads a key. -/
def readKey (i : Input) : Result (Key × Input) := do
  let (n, i) ← readVarint i
  if 0x100000000 ≤ n then fail (.badKey n)
  match WireType.ofCode? (n % 8) with
  | none => fail (.badWireType (n % 8))
  | some wireType => if n / 8 = 0 then fail .zeroTag else return (⟨n / 8, wireType⟩, i)

/-- Refuses a value of another layout than the field's. -/
def expectWireType (expected actual : WireType) : Result Unit :=
  if actual = expected then .ok () else fail (.wrongWireType actual expected)

/-- Goes past `n` bytes. -/
def advance (n : Nat) (i : Input) : Result Input :=
  if n ≤ i.size then .ok (i.drop n) else fail .underflow

/-- The bytes of a length-delimited value. -/
def writeDelimited (body : List UInt8) : List UInt8 := writeVarint body.length ++ body

/-- The number of bytes of a length-delimited value with a body of `length` bytes. -/
def delimitedLength (length : Nat) : Nat := varintLength length + length

/-- Reads the bytes of a length-delimited value. -/
def readDelimited (i : Input) : Result (List UInt8 × Input) := do
  let (n, i) ← readVarint i
  if n ≤ i.size then return (i.take n, i.drop n) else fail .underflow

end SandboxPool.Wire
