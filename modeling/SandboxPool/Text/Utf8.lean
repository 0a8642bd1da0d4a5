/-!
# UTF-8

Bytes and characters. `encode` writes each character in its shortest form; `decode` reads back
exactly such bytes and otherwise says where the first fault is and how many bytes it spans, so
that a reader can tell damaged text from text that was cut off.

The reader walks the bytes once. Between two bytes it is either between characters or inside
one, and then `Lead` holds what the next byte has to be.
-/

namespace SandboxPool.Text.Utf8

/-- Why bytes are not UTF-8. `malformed i n`: the `n` bytes from `i` on begin no character.
`cutOff i`: the bytes end inside the character that begins at `i`. -/
inductive Fault where
  | malformed (index length : Nat)
  | cutOff (index : Nat)
  deriving Repr, DecidableEq

/-- The words for a fault. -/
def Fault.message : Fault → String
  | .malformed index length =>
    s!"invalid utf-8 sequence of {length} bytes from index {index}"
  | .cutOff index => s!"incomplete utf-8 byte sequence from index {index}"

/-- A character that has begun: `seen` bytes are read, `missing` are to come, the next one lies
between `low` and `high`, and `code` is the part of the code point read so far. -/
structure Lead where
  seen : Nat
  missing : Nat
  low : UInt8
  high : UInt8
  code : Nat
  deriving Repr, DecidableEq

/-- What a byte between two characters is: a character of its own, the beginning of a longer
one, or no beginning at all. -/
inductive Start where
  | single (c : Char)
  | lead (l : Lead)
  | stray
  deriving Repr, DecidableEq

/-- Classifies the first byte of a character. The ranges of the second byte keep out code points
that have a shorter form, surrogates, and numbers above the last code point. -/
def Start.ofByte (b : UInt8) : Start :=
  if b < 0x80 then .single (Char.ofNat b.toNat)
  else if b < 0xc2 then .stray
  else if b < 0xe0 then .lead ⟨1, 1, 0x80, 0xbf, b.toNat - 0xc0⟩
  else if b = 0xe0 then .lead ⟨1, 2, 0xa0, 0xbf, 0⟩
  else if b = 0xed then .lead ⟨1, 2, 0x80, 0x9f, 0xd⟩
  else if b < 0xf0 then .lead ⟨1, 2, 0x80, 0xbf, b.toNat - 0xe0⟩
  else if b = 0xf0 then .lead ⟨1, 3, 0x90, 0xbf, 0⟩
  else if b < 0xf4 then .lead ⟨1, 3, 0x80, 0xbf, b.toNat - 0xf0⟩
  else if b = 0xf4 then .lead ⟨1, 3, 0x80, 0x8f, 4⟩
  else .stray

/-- The code point after one more byte. -/
def Lead.extend (l : Lead) (b : UInt8) : Nat :=
  l.code * 64 + (b.toNat - 0x80)

/-- Reads the bytes from `index` on, inside the character `open?` if there is one. The characters
read so far stand in `done`, the last one first. -/
def decodeFrom (done : List Char) (index : Nat) :
    (open? : Option Lead) → List UInt8 → Except Fault (List Char)
  | none, [] => .ok done.reverse
  | some _, [] => .error (.cutOff index)
  | none, b :: rest =>
    match Start.ofByte b with
    | .single c => decodeFrom (c :: done) (index + 1) none rest
    | .lead l => decodeFrom done index (some l) rest
    | .stray => .error (.malformed index 1)
  | some l, b :: rest =>
    if l.low ≤ b ∧ b ≤ l.high then
      if l.missing = 1 then
        decodeFrom (Char.ofNat (l.extend b) :: done) (index + l.seen + 1) none rest
      else
        decodeFrom done index (some ⟨l.seen + 1, l.missing - 1, 0x80, 0xbf, l.extend b⟩) rest
    else .error (.malformed index l.seen)

/-- The characters that bytes stand for. -/
def decodeChars (bytes : List UInt8) : Except Fault (List Char) :=
  decodeFrom [] 0 none bytes

/-- The text that bytes stand for. -/
def decode (bytes : List UInt8) : Except Fault String :=
  (decodeChars bytes).map String.ofList

/-- The bytes of a text. -/
def encode (s : String) : List UInt8 :=
  s.toList.flatMap String.utf8EncodeChar

/-- The number of bytes of a text. -/
def size (s : String) : Nat :=
  s.toList.foldl (fun n c => n + c.utf8Size) 0

end SandboxPool.Text.Utf8
