import SandboxPool.Host.Function
import SandboxPool.Memory.Heap

/-!
# What a script guest can do

A script guest has a heap of its own and calls host functions by group and name. The operations
below are what its instructions are made of: allocating, laying out strings and messages, and
calling the host. An operation that stops early leaves the guest and the host as they were at
that point.
-/

namespace SandboxPool

/-- Why a guest stops before its end: a failure, a panic, or a wait for a lock client. -/
inductive Stop where
  | failure (e : Failure)
  | panic (message : String)
  | waiting (gate : String)

/-- A guest's heap and the host around it. -/
structure GuestState where
  heap : Heap
  host : HostState

/-- Something a guest does. -/
abbrev GuestM := ExceptT Stop (StateM GuestState)

namespace GuestM

/-- The value of an outcome, or its failure. -/
def ofOutcome {α : Type} : Outcome α → GuestM α
  | .ok a => pure a
  | .error e => throw (.failure e)

/-- Fails with a cause. -/
def refuse {α : Type} (c : Cause) : GuestM α := throw (.failure c)

/-- Changes the heap. -/
def onHeap {α : Type} (f : Heap → Outcome (α × Heap)) : GuestM α := do
  let s ← get
  let (a, heap) ← ofOutcome (f s.heap)
  set { s with heap }
  return a

/-- An address as a guest pointer. -/
def pointer (address : Nat) : GuestM Int32 :=
  if address < 0x80000000 then return Int32.ofNat address
  else refuse (.badArgument "ptr" "pointer overflow")

/-- The bytes of the memory. -/
def memorySize : GuestM Nat := return (← get).heap.size

/-- Grows the memory and returns its new size. -/
def grow (pages : Nat) : GuestM Nat := onHeap fun h =>
  let h := h.grow pages
  .ok (h.size, h)

/-- Allocates a block. -/
def alloc (length : Nat) : GuestM Int32 := do
  pointer (← onHeap (·.alloc length))

/-- Copies bytes into a fresh block. -/
def store (data : List UInt8) : GuestM Int32 := do
  pointer (← onHeap (·.store data))

/-- Reads bytes at a pointer. -/
def load (p : Int32) (length : Nat) : GuestM (List UInt8) := do
  if p < 0 then refuse (.badArgument "ptr" "negative pointer")
  ofOutcome ((← get).heap.read p.toNatClampNeg length)

/-- Writes bytes at an address. -/
def poke (address : Nat) (data : List UInt8) : GuestM Unit :=
  onHeap fun h => (h.write address data).map fun h => ((), h)

/-- Lays out a counted string and returns the pointer to its first unit. -/
def storeCounted (s : String) : GuestM Int32 := do
  let block := StringLayout.encodeCounted s
  if 0x100000000 ≤ block.length - 4 then refuse (.badArgument "string" "string too long")
  return (← store block) + 4

/-- Lays out a zero-terminated string. -/
def storeTerminated (s : String) : GuestM Int32 := store (StringLayout.encodeTerminated s)

/-- Calls a host function. -/
def call (imports : Imports) (group name : String) (args : List Value) : GuestM (List Value) := do
  let qualified := group ++ "." ++ name
  match imports.get? group name with
  | none => refuse (.exportMissing qualified)
  | some f =>
    let s ← get
    let (reply, memory, host) := f.call qualified args s.heap.memory s.host
    set ({ heap := { s.heap with memory }, host } : GuestState)
    match reply with
    | .done r => ofOutcome r
    | .panicked message => throw (.panic message)
    | .waiting gate => throw (.waiting gate)

/-- Calls a host function that returns one `i32`. -/
def callI32 (imports : Imports) (group name : String) (args : List Value) : GuestM Int32 := do
  match ← call imports group name args with
  | [.i32 v] => return v
  | _ => refuse (.callFailed (group ++ "." ++ name) "expected a single i32 result")

/-- Hands bytes to the host and returns their handle. -/
def sendMessage (imports : Imports) (data : List UInt8) : GuestM Int32 := do
  let p ← store data
  if 0x80000000 ≤ data.length then refuse (.badArgument "len" "message too large")
  callI32 imports "interop" "registerBuffer" [.i32 p, .i32 (Int32.ofNat data.length)]

/-- Copies the bytes under a handle into a fresh block and returns them. -/
def receiveMessage (imports : Imports) (handle : Int32) : GuestM (List UInt8) := do
  let size ← callI32 imports "interop" "bufferSize" [.i32 handle]
  if size < 0 then refuse (.badArgument "handle" "negative buffer size")
  let p ← alloc size.toNatClampNeg
  let _ ← call imports "interop" "readBuffer" [.i32 handle, .i32 p]
  load p size.toNatClampNeg

end GuestM
end SandboxPool
