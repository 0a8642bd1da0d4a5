/-!
# Undecodable bytes

What a message reader can stumble over, where it stood, and the words for both. The place is the
chain of fields being read, the innermost first.
-/

namespace SandboxPool.Wire

/-- How the value of a field is laid out. -/
inductive WireType where
  | varint | fixed64 | delimited | groupStart | groupEnd | fixed32
  deriving Repr, DecidableEq, Inhabited

namespace WireType

/-- The number of a wire type. -/
def code : WireType → Nat
  | varint => 0
  | fixed64 => 1
  | delimited => 2
  | groupStart => 3
  | groupEnd => 4
  | fixed32 => 5

/-- The wire type of a number below 6. -/
def ofCode? : Nat → Option WireType
  | 0 => some varint
  | 1 => some fixed64
  | 2 => some delimited
  | 3 => some groupStart
  | 4 => some groupEnd
  | 5 => some fixed32
  | _ => none

/-- The name of a wire type in messages. -/
def name : WireType → String
  | varint => "Varint"
  | fixed64 => "SixtyFourBit"
  | delimited => "LengthDelimited"
  | groupStart => "StartGroup"
  | groupEnd => "EndGroup"
  | fixed32 => "ThirtyTwoBit"

theorem ofCode?_code (w : WireType) : ofCode? w.code = some w := by cases w <;> rfl

end WireType

/-- Why bytes are no message. -/
inductive Problem where
  | badVarint
  | badKey (key : Nat)
  | badWireType (code : Nat)
  | zeroTag
  | wrongWireType (actual expected : WireType)
  | underflow
  | overrun
  | notText
  | strayGroupEnd
  | tooDeep
  deriving Repr, DecidableEq, Inhabited

/-- The words for a problem. -/
def Problem.message : Problem → String
  | badVarint => "invalid varint"
  | badKey key => "invalid key value: " ++ toString key
  | badWireType code => "invalid wire type value: " ++ toString code
  | zeroTag => "invalid tag value: 0"
  | wrongWireType actual expected =>
    "invalid wire type: " ++ actual.name ++ " (expected " ++ expected.name ++ ")"
  | underflow => "buffer underflow"
  | overrun => "delimited length exceeded"
  | notText => "invalid string value: data is not UTF-8 encoded"
  | strayGroupEnd => "unexpected end group tag"
  | tooDeep => "recursion limit reached"

/-- A problem and the fields it lies in, the innermost first. -/
structure DecodeError where
  place : List (String × String)
  problem : Problem
  deriving Repr, DecidableEq, Inhabited

namespace DecodeError

instance : Coe Problem DecodeError := ⟨fun p => ⟨[], p⟩⟩

/-- The error seen from the field that was being read. -/
def inField (e : DecodeError) (message field : String) : DecodeError :=
  { e with place := e.place ++ [(message, field)] }

/-- The words for an error. -/
def message (e : DecodeError) : String :=
  "failed to decode Protobuf message: " ++
    String.join (e.place.map fun p => p.1 ++ "." ++ p.2 ++ ": ") ++ e.problem.message

end DecodeError

/-- The result of reading. -/
abbrev Result (α : Type) := Except DecodeError α

/-- Fails with a problem at this very place. -/
def fail {α : Type} (p : Problem) : Result α := .error ⟨[], p⟩

end SandboxPool.Wire
