import SandboxPool.Memory.Basic

/-!
# Pointers from the guest

Guests pass addresses and lengths as signed 32-bit numbers. A negative one is refused by name
before the memory is looked at; what remains is a range check against the memory's size at that
moment.
-/

namespace SandboxPool

/-- A signed number from the guest as an address or length. -/
def guestNat (value : Int32) (argument : String) : Outcome Nat :=
  if 0 ≤ value then .ok value.toNatClampNeg
  else refuse (.badArgument argument (toString value ++ " is negative"))

namespace Memory

/-- Reads `length` bytes at a guest pointer. -/
def guestRead (m : Memory) (pointer length : Int32) : Outcome (List UInt8) := do
  let offset ← guestNat pointer "ptr"
  let length ← guestNat length "len"
  m.read offset length

/-- Writes bytes at a guest pointer. -/
def guestWrite (m : Memory) (pointer : Int32) (data : List UInt8) : Outcome Memory := do
  let offset ← guestNat pointer "ptr"
  m.write offset data

end Memory
end SandboxPool
