/-!
# Bytes left to read

An `Input` is the rest of a buffer together with its length, so that asking how much is left
costs nothing. Nested messages read from the same input as their parent.
-/

namespace SandboxPool.Wire

/-- The bytes left to read. -/
structure Input where
  bytes : List UInt8
  size : Nat
  size_eq : size = bytes.length := by rfl

namespace Input

/-- All of a buffer. -/
def ofList (bytes : List UInt8) : Input := { bytes, size := bytes.length }

/-- The next byte and what follows it. -/
def next? : Input → Option (UInt8 × Input)
  | ⟨[], _, _⟩ => none
  | ⟨b :: rest, size, h⟩ => some (b, ⟨rest, size - 1, by simp [h]⟩)

/-- What follows the next `n` bytes. -/
def drop (i : Input) (n : Nat) : Input :=
  ⟨i.bytes.drop n, i.size - n, by simp [i.size_eq]⟩

/-- The next `n` bytes. -/
def take (i : Input) (n : Nat) : List UInt8 := i.bytes.take n

@[simp] theorem bytes_ofList (bytes : List UInt8) : (ofList bytes).bytes = bytes := rfl

@[simp] theorem bytes_drop (i : Input) (n : Nat) : (i.drop n).bytes = i.bytes.drop n := rfl

theorem ext_bytes {i j : Input} (h : i.bytes = j.bytes) : i = j := by
  cases i with
  | mk bytes size hs => cases j with
    | mk bytes' size' hs' => cases h; cases hs; cases hs'; rfl

end Input
end SandboxPool.Wire
