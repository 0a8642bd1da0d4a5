import SandboxPool.Failure

/-!
# Buffers under handles

Messages cross the sandbox boundary as buffers the host keeps, each under a small positive number
the guest can pass around. A handle joins the table's generation with the number of a slot, so a
handle from before the last `reset` does not match the generation any more.

Freed slots are used again, the one freed last first.
-/

namespace SandboxPool

/-- A buffer: its bytes, and the message type if the host encoded it. -/
structure Buffer where
  bytes : List UInt8
  messageType : Option String
  deriving Repr, DecidableEq, Inhabited

/-- The buffers of one context. -/
structure HandleTable where
  generation : Nat
  slots : Array (Option Buffer)
  free : List Nat
  deriving Repr, DecidableEq

namespace HandleTable

/-- The most buffers that may be live at a time. -/
def capacity : Nat := 4096

/-- The number of generations; they run from 1 to `generations` and then from 1 again. -/
def generations : Nat := 32767

/-- A table without buffers, in the first generation. -/
def empty : HandleTable := ⟨1, #[], []⟩

instance : Inhabited HandleTable := ⟨empty⟩

/-- The handle of a slot in a generation. -/
def encode (generation index : Nat) : Int32 :=
  Int32.ofNat (generation * 65536 + (index + 1))

/-- The slot a handle names; none if the handle is not of this generation. -/
def decode? (t : HandleTable) (handle : Int32) : Option Nat :=
  let n := handle.toNatClampNeg
  if 0 < handle ∧ n / 65536 = t.generation ∧ n % 65536 ≠ 0 then some (n % 65536 - 1) else none

/-- The buffer under a handle. -/
def get? (t : HandleTable) (handle : Int32) : Option Buffer :=
  t.decode? handle |>.bind fun index => t.slots[index]?.join

/-- Stores a buffer and returns its handle. -/
def insert (t : HandleTable) (buffer : Buffer) : Outcome (Int32 × HandleTable) :=
  match t.free with
  | index :: free =>
    .ok (encode t.generation index, { t with slots := t.slots.setIfInBounds index buffer, free })
  | [] =>
    if t.slots.size < capacity then
      .ok (encode t.generation t.slots.size, { t with slots := t.slots.push (some buffer) })
    else
      refuse (.callFailed "interop.registerBuffer" (s!"more than {capacity} live buffers"))

/-- The buffer under a handle, or the refusal of a handle that is not live. -/
def resolve (t : HandleTable) (handle : Int32) : Outcome Buffer :=
  match t.get? handle with
  | some buffer => .ok buffer
  | none => refuse (.staleHandle handle)

/-- Drops the buffer under a handle; tells whether there was one. -/
def discard (t : HandleTable) (handle : Int32) : Bool × HandleTable :=
  match t.decode? handle with
  | some index =>
    match t.slots[index]?.join with
    | some _ =>
      (true, { t with slots := t.slots.setIfInBounds index none, free := index :: t.free })
    | none => (false, t)
  | none => (false, t)

/-- The generation after `generation`. -/
def nextGeneration (generation : Nat) : Nat :=
  if (generation + 1) % (generations + 1) = 0 then 1 else (generation + 1) % (generations + 1)

/-- Drops every buffer and goes to the next generation. -/
def reset (t : HandleTable) : HandleTable :=
  ⟨nextGeneration t.generation, #[], []⟩

/-- The number of live buffers. -/
def size (t : HandleTable) : Nat :=
  t.slots.countP Option.isSome

end HandleTable
end SandboxPool
