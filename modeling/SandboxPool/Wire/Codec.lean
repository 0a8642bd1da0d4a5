import SandboxPool.Wire.Skip
import SandboxPool.Wire.Content
import SandboxPool.Text.Utf8

/-!
# Message types

A `Codec M` describes how values of `M` are written and read: its fields in the order of their
tags, each with a way to write it and a way to merge a value that was read into a message.

Writing leaves out fields that equal their default; a sub-message that is present is always
written. The length of a value is computed before the value is written, and stands in front of it.
Reading starts from the default message and merges field by field: of scalars and texts
the last one counts, sub-messages that repeat are merged, map entries are put under their keys,
and unknown fields are gone past. A nested value is read from the input of its parent, so a
parent whose length was wrong is found out only once its end is reached.
-/

namespace SandboxPool.Wire

/-- Reads the fields of a value until `stop` bytes are left, one `step` after another. -/
def readUntil {α : Type} (step : α → Input → Result (α × Input)) (stop : Nat) :
    (fuel : Nat) → α → Input → Result (α × Input)
  -- every step takes at least one byte, so one unit of fuel for each byte is enough
  | 0, a, i => if i.size = stop then .ok (a, i) else fail .overrun
  | fuel + 1, a, i =>
    if stop < i.size then do
      let (a, i) ← step a i
      readUntil step stop fuel a i
    else if i.size = stop then .ok (a, i)
    else fail .overrun

/-- Reads a length and then the fields of a value of that length. -/
def readNested {α : Type} (step : α → Input → Result (α × Input)) (a : α) (i : Input) :
    Result (α × Input) := do
  let (n, i) ← readVarint i
  if n ≤ i.size then readUntil step (i.size - n) (n + 1) a i else fail .underflow

/-- A field of `M`. Reading is given the levels of nesting still allowed and the wire type that
was found. -/
structure Field (M : Type) where
  tag : Nat
  name : String
  read : (budget : Nat) → WireType → M → Input → Result (M × Input)
  /-- Writes the field, the entries of maps in some order. -/
  write : EntryOrder → M → List UInt8
  /-- How many bytes writing takes. -/
  length : M → Nat
  /-- What the field holds in a message. -/
  content : M → Content
  /-- Puts into a message what the field is to hold; content of another kind is left out. -/
  fill : Content → M → M
  /-- Content of the kind the field holds. -/
  shape : Content

/-- The name of a field outside of errors, where a mark sets off names that are also words of the
schema language. -/
def Field.label {M : Type} (f : Field M) : String :=
  match f.name.toList with
  | 'r' :: '#' :: rest => String.ofList rest
  | _ => f.name

/-- A message type: its name inside errors, its default value and its fields. -/
structure Codec (M : Type) where
  name : String
  default : M
  fields : List (Field M)

namespace Codec

variable {M : Type}

/-- Reads one field of a message. -/
def readField (c : Codec M) (budget : Nat) (m : M) (i : Input) : Result (M × Input) := do
  let (key, i) ← readKey i
  match c.fields.find? (·.tag = key.tag) with
  | some field =>
    match field.read budget key.wireType m i with
    | .ok r => return r
    | .error e => .error (e.inField c.name field.name)
  | none =>
    let i ← skipField (2 * i.size + 2) budget key i
    return (m, i)

/-- The bytes of a message whose maps are written in some order. -/
def encodeIn (c : Codec M) (order : EntryOrder) (m : M) : List UInt8 :=
  c.fields.flatMap fun f => f.write order m

/-- The bytes of a message. -/
def encode (c : Codec M) (m : M) : List UInt8 := c.encodeIn .byKey m

/-- How many bytes a message takes. -/
def length (c : Codec M) (m : M) : Nat := c.fields.foldr (fun f n => f.length m + n) 0

/-- The levels of nesting a message may have. -/
def depthLimit : Nat := 100

/-- Reads a message that takes up the whole of `bytes`. -/
def decode (c : Codec M) (bytes : List UInt8) : Result M :=
  (readUntil (c.readField depthLimit) 0 bytes.length c.default (Input.ofList bytes)).map Prod.fst

/-- The contents of a message. -/
def record (c : Codec M) (m : M) : Record := c.fields.map fun f => (f.label, f.content m)

/-- The message with the given contents. Fields that are not named have their defaults. -/
def ofRecord (c : Codec M) (r : Record) : M :=
  r.foldl (fun m e =>
    match c.fields.find? fun f => f.label = e.1 with
    | some f => f.fill e.2 m
    | none => m) c.default

/-- The kinds of a message's contents. -/
def shape (c : Codec M) : Record := c.fields.map fun f => (f.label, f.shape)

end Codec

/-- Reads a text. -/
def readText (i : Input) : Result (String × Input) := do
  let (bytes, i) ← readDelimited i
  match Text.Utf8.decode bytes with
  | .ok s => return (s, i)
  | .error _ => fail .notText

/-- Writes a field with a length in front, unless its body is empty. -/
def writeTextField (tag : Nat) (s : String) : List UInt8 :=
  if s.isEmpty then [] else Key.write ⟨tag, .delimited⟩ ++ writeDelimited (Text.Utf8.encode s)

/-- The number of bytes of a text field. -/
def textFieldLength (tag : Nat) (s : String) : Nat :=
  if s.isEmpty then 0 else keyLength tag + delimitedLength (Text.Utf8.encode s).length

namespace Field

variable {M N : Type}

/-- A text field. -/
def text (tag : Nat) (name : String) (get : M → String) (set : M → String → M) : Field M where
  tag := tag
  name := name
  read _ wireType m i := do
    expectWireType .delimited wireType
    let (s, i) ← readText i
    return (set m s, i)
  write _ m := writeTextField tag (get m)
  length m := textFieldLength tag (get m)
  content m := .text (get m)
  fill
    | .text s, m => set m s
    | _, m => m
  shape := .text ""

/-- A truth value; any number but zero is true. -/
def bool (tag : Nat) (name : String) (get : M → Bool) (set : M → Bool → M) : Field M where
  tag := tag
  name := name
  read _ wireType m i := do
    expectWireType .varint wireType
    let (n, i) ← readVarint i
    return (set m (n ≠ 0), i)
  write _ m := if get m then Key.write ⟨tag, .varint⟩ ++ writeVarint 1 else []
  length m := if get m then keyLength tag + 1 else 0
  content m := .flag (get m)
  fill
    | .flag b, m => set m b
    | _, m => m
  shape := .flag false

/-- A signed 64-bit number, written as its two's complement. -/
def int64 (tag : Nat) (name : String) (get : M → Int64) (set : M → Int64 → M) : Field M where
  tag := tag
  name := name
  read _ wireType m i := do
    expectWireType .varint wireType
    let (n, i) ← readVarint i
    return (set m (Int64.ofNat n), i)
  write _ m :=
    if get m = 0 then []
    else Key.write ⟨tag, .varint⟩ ++ writeVarint (get m).toUInt64.toNat
  length m :=
    if get m = 0 then 0 else keyLength tag + varintLength (get m).toUInt64.toNat
  content m := .number (get m)
  fill
    | .number n, m => set m n
    | _, m => m
  shape := .number 0

/-- A sub-message. -/
def message (tag : Nat) (name : String) (codec : Codec N) (get : M → Option N)
    (set : M → Option N → M) : Field M where
  tag := tag
  name := name
  read budget wireType m i := do
    expectWireType .delimited wireType
    -- a wrong wire type is told before nesting that is too deep
    if budget = 0 then fail .tooDeep
    let (n, i) ← readNested (codec.readField (budget - 1)) ((get m).getD codec.default) i
    return (set m (some n), i)
  write order m := match get m with
    | none => []
    | some n =>
      Key.write ⟨tag, .delimited⟩ ++ (writeVarint (codec.length n) ++ codec.encodeIn order n)
  length m := match get m with
    | none => 0
    | some n => keyLength tag + delimitedLength (codec.length n)
  content m := match get m with
    | none => .absent
    | some n => .record (codec.record n)
  fill
    | .record r, m => set m (some (codec.ofRecord r))
    | .absent, m => set m none
    | _, m => m
  shape := .record codec.shape

/-- The entry of a map, read as a message without a name of its own. -/
def readEntryField (budget : Nat) (e : String × String) (i : Input) :
    Result ((String × String) × Input) := do
  let (key, i) ← readKey i
  if key.tag = 1 then
    expectWireType .delimited key.wireType
    let (s, i) ← readText i
    return ((s, e.2), i)
  else if key.tag = 2 then
    expectWireType .delimited key.wireType
    let (s, i) ← readText i
    return ((e.1, s), i)
  else
    let i ← skipField (2 * i.size + 2) budget key i
    return (e, i)

/-- The number of bytes of an entry without its key and length. -/
def entryLength (e : String × String) : Nat := textFieldLength 1 e.1 + textFieldLength 2 e.2

/-- The bytes of one entry of a map field. -/
def writeEntry (tag : Nat) (e : String × String) : List UInt8 :=
  Key.write ⟨tag, .delimited⟩ ++
    (writeVarint (entryLength e) ++ (writeTextField 1 e.1 ++ writeTextField 2 e.2))

/-- A map between texts, one entry after the other. The wire type of the field itself is not
looked at. -/
def textMap (tag : Nat) (name : String) (get : M → TextMap) (set : M → TextMap → M) :
    Field M where
  tag := tag
  name := name
  read budget _ m i := do
    if budget = 0 then fail .tooDeep
    let (e, i) ← readNested (readEntryField (budget - 1)) ("", "") i
    return (set m ((get m).insert e.1 e.2), i)
  write order m := (order.arrange (get m).entries).flatMap (writeEntry tag)
  length m :=
    keyLength tag * (get m).entries.length +
      (get m).entries.foldr (fun e n => delimitedLength (entryLength e) + n) 0
  content m := .map (get m)
  fill
    | .map t, m => set m t
    | _, m => m
  shape := .map .empty

end Field
end SandboxPool.Wire
