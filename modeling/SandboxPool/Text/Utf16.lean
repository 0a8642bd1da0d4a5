/-!
# UTF-16

Sixteen-bit units and characters. A character above `0xffff` is a pair of surrogates; `decode`
refuses a surrogate without its partner. `bytes` and `ofBytes` lay units out low byte first.
-/

namespace SandboxPool.Text.Utf16

/-- The words for units that are no text. -/
def loneSurrogate : String := "invalid utf-16: lone surrogate found"

/-- The units of one character. -/
def encodeChar (c : Char) : List UInt16 :=
  if c.toNat < 0x10000 then [UInt16.ofNat c.toNat]
  else
    [UInt16.ofNat (0xd800 + (c.toNat - 0x10000) / 0x400),
      UInt16.ofNat (0xdc00 + (c.toNat - 0x10000) % 0x400)]

/-- The units of a list of characters. -/
def encodeChars (cs : List Char) : List UInt16 :=
  cs.flatMap encodeChar

/-- The first half of a pair. -/
def isHigh (u : UInt16) : Bool :=
  0xd800 ≤ u && u < 0xdc00

/-- The second half of a pair. -/
def isLow (u : UInt16) : Bool :=
  0xdc00 ≤ u && u < 0xe000

/-- The character a pair stands for. -/
def pairChar (high low : UInt16) : Char :=
  Char.ofNat (0x10000 + (high.toNat - 0xd800) * 0x400 + (low.toNat - 0xdc00))

/-- Reads units after `done`, the last character first, and after the first half of a pair if
`high?` holds one. -/
def decodeFrom (done : List Char) : (high? : Option UInt16) → List UInt16 → Option (List Char)
  | none, [] => some done.reverse
  | some _, [] => none
  | none, u :: rest =>
    if isHigh u then decodeFrom done (some u) rest
    else if isLow u then none
    else decodeFrom (Char.ofNat u.toNat :: done) none rest
  | some high, u :: rest =>
    if isLow u then decodeFrom (pairChar high u :: done) none rest else none

/-- The characters units stand for, none if a surrogate is alone. -/
def decodeChars (units : List UInt16) : Option (List Char) :=
  decodeFrom [] none units

/-- The bytes of units, low byte first. -/
def bytes (units : List UInt16) : List UInt8 :=
  units.flatMap fun u => [UInt8.ofNat (u.toNat % 256), UInt8.ofNat (u.toNat / 256)]

/-- The units of bytes, low byte first; a last odd byte is dropped. -/
def ofBytes : List UInt8 → List UInt16
  | low :: high :: rest => UInt16.ofNat (low.toNat + high.toNat * 256) :: ofBytes rest
  | _ => []

/-- The bytes of a text. -/
def encode (s : String) : List UInt8 :=
  bytes (encodeChars s.toList)

/-- The text of bytes. -/
def decode (data : List UInt8) : Option String :=
  (decodeChars (ofBytes data)).map String.ofList

end SandboxPool.Text.Utf16
