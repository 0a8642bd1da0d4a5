import SandboxPool.Memory.Basic

/-!
# A memory with an allocator

Script guests allocate from their memory by moving a pointer up. Blocks are eight-byte aligned,
begin at 16 or later so that 0 is no block's address, and end where a 32-bit signed pointer can
still reach. The memory grows by whole pages when a block does not fit.
-/

namespace SandboxPool

/-- A memory and the first address that no block covers. -/
structure Heap where
  memory : Memory
  next : Nat

namespace Heap

/-- The largest number a signed 32-bit pointer holds. -/
def lastAddress : Nat := 0x7fffffff

/-- A heap over a fresh memory of `pages` pages. -/
def ofPages (pages : Nat) : Heap := ⟨Memory.ofPages pages, 16⟩

/-- The bytes of the memory. -/
def size (h : Heap) : Nat := h.memory.size

/-- The least multiple of `step` that is at least `n`. -/
def roundUp (step n : Nat) : Nat := (n + step - 1) / step * step

/-- The heap with `pages` more pages. -/
def grow (h : Heap) (pages : Nat) : Heap :=
  { h with memory := h.memory.resize (h.memory.size + pages * pageSize) }

/-- The address of a fresh block of `length` bytes. -/
def alloc (h : Heap) (length : Nat) : Outcome (Nat × Heap) :=
  let start := roundUp 8 h.next
  let stop := start + length
  if stop ≤ lastAddress then
    let memory := if h.memory.size < stop then h.memory.resize (roundUp pageSize stop) else h.memory
    .ok (start, ⟨memory, stop⟩)
  else refuse (.outOfBounds start length h.memory.size)

/-- Reads a range of the memory. -/
def read (h : Heap) (offset length : Nat) : Outcome (List UInt8) :=
  h.memory.read offset length

/-- Writes a range of the memory. -/
def write (h : Heap) (offset : Nat) (data : List UInt8) : Outcome Heap := do
  return { h with memory := ← h.memory.write offset data }

/-- Copies `data` into a fresh block. -/
def store (h : Heap) (data : List UInt8) : Outcome (Nat × Heap) := do
  let (start, h) ← h.alloc data.length
  return (start, ← h.write start data)

/-- A heap in diagnostics. -/
def diagnostic (h : Heap) : String :=
  Text.openRecord "StubMemory" [("size", toString h.size)]

end Heap
end SandboxPool
