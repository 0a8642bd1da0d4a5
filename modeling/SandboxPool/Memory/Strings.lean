import SandboxPool.Memory.Access
import SandboxPool.Text.Utf8
import SandboxPool.Text.Utf16

/-!
# Strings in guest memory

Guests lay strings out in one of two ways, and `StringLayout.decode` reads both:

* `counted`: UTF-16 units, low byte first, with the number of their bytes in the four bytes
  before the pointer;
* `terminated`: UTF-8 bytes up to a zero byte, at most `longestTerminated` of them.

Every range is checked against the memory before it is read.
-/

namespace SandboxPool

/-- How a guest lays out strings. -/
inductive StringLayout where
  | counted
  | terminated
  deriving Repr, DecidableEq, Inhabited

namespace StringLayout

/-- The most bytes a zero-terminated string may have. -/
def longestTerminated : Nat := 65536

/-- The number that four bytes stand for, low byte first. -/
def littleEndian (bytes : List UInt8) : Nat :=
  bytes.foldr (fun b n => b.toNat + 256 * n) 0

/-- The four bytes of a number, low byte first. -/
def littleEndian32 (n : Nat) : List UInt8 :=
  [UInt8.ofNat n, UInt8.ofNat (n / 256), UInt8.ofNat (n / 65536), UInt8.ofNat (n / 16777216)]

/-- Reads counted UTF-16. -/
def decodeCounted (m : Memory) (pointer : Int32) : Outcome String := do
  let offset ← guestNat pointer "ptr"
  if offset < 4 then
    refuse (.badArgument "ptr" "string pointer has no length header")
  let header ← m.read (offset - 4) 4
  let length := littleEndian header
  if length % 2 ≠ 0 then
    refuse (.badArgument "string" (s!"UTF-16 byte length {length} is odd"))
  let body ← m.read offset length
  match Text.Utf16.decode body with
  | some s => return s
  | none => .error ⟨.badArgument "string" "invalid UTF-16", [Text.Utf16.loneSurrogate]⟩

/-- Reads zero-terminated UTF-8. The scan stops one byte after the longest string allowed. -/
def decodeTerminated (m : Memory) (pointer : Int32) : Outcome String := do
  let offset ← guestNat pointer "ptr"
  Memory.checkRange offset 0 m.size
  let window := min (m.size - offset) (longestTerminated + 1)
  let bytes ← m.read offset window
  let body := bytes.takeWhile (· ≠ 0)
  if body.length = window then
    if longestTerminated < window then
      refuse (.badArgument "string" (s!"longer than {longestTerminated} bytes"))
    else refuse (.outOfBounds offset (window + 1) m.size)
  else match Text.Utf8.decode body with
    | .ok s => return s
    | .error fault => .error ⟨.badArgument "string" "invalid UTF-8", [fault.message]⟩

/-- Reads the string at a guest pointer. -/
def decode : StringLayout → Memory → Int32 → Outcome String
  | counted => decodeCounted
  | terminated => decodeTerminated

/-- The bytes of a counted string, from its length on; the pointer goes four bytes in. -/
def encodeCounted (s : String) : List UInt8 :=
  let body := Text.Utf16.encode s
  littleEndian32 body.length ++ body

/-- The bytes of a zero-terminated string. -/
def encodeTerminated (s : String) : List UInt8 :=
  Text.Utf8.encode s ++ [0]

/-- A layout in diagnostics. -/
def diagnostic : StringLayout → String
  | counted => "AssemblyScript"
  | terminated => "CString"

end StringLayout
end SandboxPool
