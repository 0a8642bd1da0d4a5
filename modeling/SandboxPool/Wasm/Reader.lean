import SandboxPool.Text.Utf8

/-!
# Reading module bytes

The basic readers of the binary format: bytes, variable-length integers with their strict bounds,
names, and lists with their length in front. A reader returns nothing if the bytes are malformed.
-/

namespace SandboxPool.Wasm

/-- Reads from the front of some bytes. -/
abbrev Reader := StateT (List UInt8) Option

namespace Reader

/-- The bytes are malformed. -/
def malformed {α : Type} : Reader α := fun _ => none

/-- The next byte. -/
def byte : Reader UInt8 := fun
  | [] => none
  | b :: rest => some (b, rest)

/-- The next `n` bytes. -/
def bytes (n : Nat) : Reader (List UInt8) := fun s =>
  let taken := s.take n
  if taken.length = n then some (taken, s.drop n) else none

/-- A particular byte. -/
def expect (b : UInt8) : Reader Unit := do
  if (← byte) ≠ b then malformed

/-- An unsigned number of `left` more bits. -/
def unsignedFrom : (fuel left scale value : Nat) → Reader Nat
  | 0, _, _, _ => malformed
  | fuel + 1, left, scale, value => do
    let b ← byte
    let low := b.toNat % 128
    if left < 7 ∧ Nat.pow 2 left ≤ low then malformed
    let value := value + low * scale
    if b < 0x80 then return value
    else if left ≤ 7 then malformed
    else unsignedFrom fuel (left - 7) (scale * 128) value

/-- An unsigned 32-bit number. -/
def u32 : Reader Nat := unsignedFrom 5 32 1 0

/-- A signed number of `left` more bits. In a last byte the unused bits repeat the sign. -/
def signedFrom : (fuel left scale : Nat) → (value : Int) → Reader Int
  | 0, _, _, _ => malformed
  | fuel + 1, left, scale, value => do
    let b ← byte
    let low := b.toNat % 128
    if left < 7 ∧ ¬ (low < Nat.pow 2 (left - 1) ∨ 128 - Nat.pow 2 (left - 1) ≤ low) then malformed
    if b < 0x80 then
      let digit : Int := if low < 64 then low else low - 128
      return value + digit * scale
    else if left ≤ 7 then malformed
    else signedFrom fuel (left - 7) (scale * 128) (value + low * scale)

/-- A signed 32-bit number. -/
def s32 : Reader Int := signedFrom 5 32 1 0

/-- A signed 33-bit number. -/
def s33 : Reader Int := signedFrom 5 33 1 0

/-- A signed 64-bit number. -/
def s64 : Reader Int := signedFrom 10 64 1 0

/-- A number of `n` bytes, the lowest first. -/
def fixed (n : Nat) : Reader Nat := do
  return (← bytes n).foldr (fun b v => b.toNat + 256 * v) 0

/-- A name. -/
def name : Reader String := do
  let data ← bytes (← u32)
  match Text.Utf8.decode data with
  | .ok s => return s
  | .error _ => malformed

/-- So many of something. -/
def times {α : Type} (item : Reader α) : Nat → Reader (List α)
  | 0 => return []
  | n + 1 => do
    let a ← item
    return a :: (← times item n)

/-- A list with its length in front. Every item takes a byte, so a length beyond what is left is
refused at once. -/
def vector {α : Type} (item : Reader α) : Reader (List α) := do
  let n ← u32
  if (← get).length < n then malformed
  times item n

/-- Reads all of some bytes. -/
def runAll {α : Type} (r : Reader α) (data : List UInt8) : Option α :=
  match r data with
  | some (a, []) => some a
  | _ => none

end Reader
end SandboxPool.Wasm
