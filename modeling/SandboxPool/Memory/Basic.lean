import SandboxPool.Failure
import Std.Data.TreeMap

/-!
# Linear memory

A guest's memory is a run of bytes from address 0 to `size`, all zero at first. Only bytes that
were written are stored; `get` is the view everything else is stated over: the byte at an
address. A read or write outside the memory fails and changes nothing.
-/

namespace SandboxPool

/-- Bytes in a page. -/
def pageSize : Nat := 65536

/-- A linear memory: its size and the bytes written so far, by address. -/
structure Memory where
  size : Nat
  cells : Std.TreeMap Nat UInt8

namespace Memory

/-- A memory of `pages` pages. -/
def ofPages (pages : Nat) : Memory := ⟨pages * pageSize, ∅⟩

/-- The byte at an address; 0 if none was written. -/
def get (m : Memory) (address : Nat) : UInt8 :=
  m.cells.getD address 0

/-- The memory with one byte replaced. -/
def set (m : Memory) (address : Nat) (byte : UInt8) : Memory :=
  { m with cells := m.cells.insert address byte }

/-- The memory with `data` from `address` on. -/
def setAll (m : Memory) (address : Nat) : List UInt8 → Memory
  | [] => m
  | b :: rest => (m.set address b).setAll (address + 1) rest

/-- The `length` bytes from `address` on. -/
def slice (m : Memory) (address length : Nat) : List UInt8 :=
  (List.range length).map fun i => m.get (address + i)

/-- The memory with a size of `size` bytes; bytes keep their places. -/
def resize (m : Memory) (size : Nat) : Memory := { m with size }

@[simp] theorem size_set (m : Memory) (a : Nat) (b : UInt8) : (m.set a b).size = m.size := rfl

@[simp] theorem size_setAll (m : Memory) (a : Nat) (data : List UInt8) :
    (m.setAll a data).size = m.size := by
  induction data generalizing m a with
  | nil => rfl
  | cons b rest ih => simp [setAll, ih]

@[simp] theorem length_slice (m : Memory) (a n : Nat) : (m.slice a n).length = n := by
  simp [slice]

theorem get_set (m : Memory) (a i : Nat) (b : UInt8) :
    (m.set a b).get i = if a = i then b else m.get i := by
  simp [get, set, Std.TreeMap.getD_insert]

/-- Refuses a range that does not lie inside `size` bytes. -/
def checkRange (offset length size : Nat) : Outcome Unit :=
  if offset + length ≤ size then .ok () else refuse (.outOfBounds offset length size)

/-- Reads a range. -/
def read (m : Memory) (offset length : Nat) : Outcome (List UInt8) := do
  checkRange offset length m.size
  return m.slice offset length

/-- Writes a range. -/
def write (m : Memory) (offset : Nat) (data : List UInt8) : Outcome Memory := do
  checkRange offset data.length m.size
  return m.setAll offset data

end Memory
end SandboxPool
