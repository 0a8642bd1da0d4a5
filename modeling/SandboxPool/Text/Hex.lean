import SandboxPool.Text.Quoted

/-!
# Bytes in hexadecimal

Two digits stand for a byte. Letters are written lower case and read in either case; anything
that is no digit counts as zero, and a last digit without a partner is left out.
-/

namespace SandboxPool.Text.Hex

/-- The value of a digit. -/
def digit (c : Char) : Nat :=
  if '0' ≤ c ∧ c ≤ '9' then c.toNat - '0'.toNat
  else if 'a' ≤ c ∧ c ≤ 'f' then c.toNat - 'a'.toNat + 10
  else if 'A' ≤ c ∧ c ≤ 'F' then c.toNat - 'A'.toNat + 10
  else 0

/-- The number that digits stand for. -/
def number (s : String) : Nat := s.toList.foldl (fun n c => n * 16 + digit c) 0

/-- The bytes that pairs of digits stand for. -/
def decodeChars : List Char → List UInt8
  | a :: b :: rest => UInt8.ofNat (digit a * 16 + digit b) :: decodeChars rest
  | _ => []

/-- The bytes of a text. -/
def decode (s : String) : List UInt8 := decodeChars s.toList

/-- The text of bytes. -/
def encode (data : List UInt8) : String := String.join (data.map fun b => hexPadded 2 b.toNat)

end SandboxPool.Text.Hex
