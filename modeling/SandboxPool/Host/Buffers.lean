import SandboxPool.Host.State
import SandboxPool.Message.Basic

/-!
# Messages in buffers

The host hands a guest a message by encoding it into a buffer tagged with the message's type; a
guest hands one over by copying its bytes into an untagged buffer. `Buffers.receive` reads a
message from either kind and refuses a buffer tagged with another type; `Buffers.consume` drops
the buffer as well, whether or not it could be read.

The functions below are the guest's side: they copy bytes between guest memory and buffers.
-/

namespace SandboxPool
namespace Buffers

open Wire

/-- Stores a message, its maps written in some order, under a fresh handle. -/
def sendIn {M : Type} [Message M] (order : EntryOrder) (t : HandleTable) (m : M) :
    Outcome (Int32 × HandleTable) :=
  t.insert ⟨Message.encodeIn order m, some (Message.typeName M)⟩

/-- Stores a message under a fresh handle. -/
def send {M : Type} [Message M] (t : HandleTable) (m : M) : Outcome (Int32 × HandleTable) :=
  sendIn .byKey t m

/-- Reads the message under a handle; the handle stays live. -/
def receive (M : Type) [Message M] (t : HandleTable) (handle : Int32) : Outcome M := do
  let buffer ← t.resolve handle
  if let some actual := buffer.messageType then
    if actual ≠ Message.typeName M then
      refuse (.badArgument "handle"
        ("holds a " ++ actual ++ ", expected a " ++ Message.typeName M))
  match Message.decode M buffer.bytes with
  | .ok m => return m
  | .error e => .error ⟨.undecodable (Message.typeName M) e.message, [e.message]⟩

/-- Reads the message under a handle and drops the buffer. -/
def consume (M : Type) [Message M] (t : HandleTable) (handle : Int32) : Outcome M × HandleTable :=
  (receive M t handle, (t.discard handle).2)

/-- Copies guest memory into a fresh buffer and returns its handle. -/
def register (memory : Memory) (args : List Value) (h : HostState) :
    Outcome (List Value × HostState) := do
  let pointer ← i32Arg args 0 "ptr"
  let length ← i32Arg args 1 "len"
  let bytes ← memory.guestRead pointer length
  let (handle, handles) ← h.handles.insert ⟨bytes, none⟩
  let event : Log.Event := ⟨.trace, .interop, "Guest registered buffer",
    [("slot", toString h.slot), ("handle", toString handle), ("len", toString length)]⟩
  return ([.i32 handle], { h with handles }.log event)

/-- The number of bytes under a handle. -/
def size (args : List Value) (h : HostState) : Outcome (List Value) := do
  let handle ← i32Arg args 0 "handle"
  let buffer ← h.handles.resolve handle
  let length := buffer.bytes.length
  if length < 0x80000000 then return [.i32 (Int32.ofNat length)]
  else refuse (.badArgument "handle" "buffer too large")

/-- Copies the bytes under a handle into guest memory. -/
def copyOut (memory : Memory) (args : List Value) (h : HostState) : Outcome Memory := do
  let handle ← i32Arg args 0 "handle"
  let pointer ← i32Arg args 1 "ptr"
  let buffer ← h.handles.resolve handle
  memory.guestWrite pointer buffer.bytes

/-- Drops the buffer under a handle, live or not. -/
def drop (args : List Value) (h : HostState) : Outcome HostState := do
  let handle ← i32Arg args 0 "handle"
  return { h with handles := (h.handles.discard handle).2 }

end Buffers
end SandboxPool
