import SandboxPool.Wasm.Module
import SandboxPool.Number.Binary

/-!
# Arithmetic of WebAssembly

Integers wrap; a shift takes its amount modulo the width. Division goes toward zero and traps on
a zero divisor, and signed division also on the one quotient that does not fit. Floats compare by
value, so the two zeros are equal and a NaN is equal to nothing.
-/

namespace SandboxPool.Wasm

/-- Why a guest cannot go on. -/
inductive Trap where
  | unreachable
  | divideByZero
  | overflow
  | stackExhausted
  | outOfBounds (address size : Nat)
  deriving Repr, DecidableEq

/-- The words for a trap. -/
def Trap.message : Trap → String
  | unreachable => "wasm trap: wasm `unreachable` instruction executed"
  | divideByZero => "wasm trap: integer divide by zero"
  | overflow => "wasm trap: integer overflow"
  | stackExhausted => "wasm trap: call stack exhausted"
  | outOfBounds address size =>
    "memory fault at wasm address 0x" ++ Text.hex address ++ " in linear memory of size 0x" ++
      Text.hex size ++ ": wasm trap: out of bounds memory access"

/-- An `i32` operation. -/
def IntOp.apply32 (a b : Int32) : IntOp → Except Trap Int32
  | add => .ok (a + b)
  | sub => .ok (a - b)
  | mul => .ok (a * b)
  | divS =>
    if b = 0 then .error .divideByZero
    else if a = Int32.minValue ∧ b = -1 then .error .overflow
    else .ok (a / b)
  | divU => if b = 0 then .error .divideByZero else .ok (a.toUInt32 / b.toUInt32).toInt32
  | remS => if b = 0 then .error .divideByZero else .ok (a % b)
  | remU => if b = 0 then .error .divideByZero else .ok (a.toUInt32 % b.toUInt32).toInt32
  | and => .ok (a &&& b)
  | or => .ok (a ||| b)
  | xor => .ok (a ^^^ b)
  | shl => .ok (a.toUInt32 <<< (b.toUInt32 % 32)).toInt32
  | shrS => .ok (a >>> (b.toUInt32 % 32).toInt32)
  | shrU => .ok (a.toUInt32 >>> (b.toUInt32 % 32)).toInt32

/-- An `i64` operation. -/
def IntOp.apply64 (a b : Int64) : IntOp → Except Trap Int64
  | add => .ok (a + b)
  | sub => .ok (a - b)
  | mul => .ok (a * b)
  | divS =>
    if b = 0 then .error .divideByZero
    else if a = Int64.minValue ∧ b = -1 then .error .overflow
    else .ok (a / b)
  | divU => if b = 0 then .error .divideByZero else .ok (a.toUInt64 / b.toUInt64).toInt64
  | remS => if b = 0 then .error .divideByZero else .ok (a % b)
  | remU => if b = 0 then .error .divideByZero else .ok (a.toUInt64 % b.toUInt64).toInt64
  | and => .ok (a &&& b)
  | or => .ok (a ||| b)
  | xor => .ok (a ^^^ b)
  | shl => .ok (a.toUInt64 <<< (b.toUInt64 % 64)).toInt64
  | shrS => .ok (a >>> (b.toUInt64 % 64).toInt64)
  | shrU => .ok (a.toUInt64 >>> (b.toUInt64 % 64)).toInt64

/-- An `i32` comparison. -/
def IntRel.holds32 (a b : Int32) : IntRel → Bool
  | eq => a = b
  | ne => a ≠ b
  | ltS => a < b
  | ltU => a.toUInt32 < b.toUInt32
  | gtS => b < a
  | gtU => b.toUInt32 < a.toUInt32
  | leS => a ≤ b
  | leU => a.toUInt32 ≤ b.toUInt32
  | geS => b ≤ a
  | geU => b.toUInt32 ≤ a.toUInt32

/-- An `i64` comparison. -/
def IntRel.holds64 (a b : Int64) : IntRel → Bool
  | eq => a = b
  | ne => a ≠ b
  | ltS => a < b
  | ltU => a.toUInt64 < b.toUInt64
  | gtS => b < a
  | gtU => b.toUInt64 < a.toUInt64
  | leS => a ≤ b
  | leU => a.toUInt64 ≤ b.toUInt64
  | geS => b ≤ a
  | geU => b.toUInt64 ≤ a.toUInt64

/-- A float comparison; a NaN only differs. -/
def FloatRel.holds (f : Number.BinaryFormat) (a b : Nat) (r : FloatRel) : Bool :=
  match (f.decode a).compare? (f.decode b) with
  | none => r = ne
  | some o => match r with
    | eq => o = .eq
    | ne => o ≠ .eq
    | lt => o = .lt
    | gt => o = .gt
    | le => o ≠ .gt
    | ge => o ≠ .lt

/-- A truth value on the stack. -/
def ofBool (b : Bool) : Val := .num (.i32 (if b then 1 else 0))

/-- The number of bytes, the lowest first. -/
def ofBytes (bytes : List UInt8) : Nat := bytes.foldr (fun b n => b.toNat + 256 * n) 0

/-- The lowest `width` bytes of a number. -/
def toBytes : (width n : Nat) → List UInt8
  | 0, _ => []
  | width + 1, n => UInt8.ofNat n :: toBytes width (n / 256)

/-- The value of loaded bytes. -/
def Access.load (a : Access) (bytes : List UInt8) : Value :=
  let n := ofBytes bytes
  let carried : Int :=
    if a.signed ∧ Nat.pow 2 (8 * a.width - 1) ≤ n then n - (Nat.pow 2 (8 * a.width) : Nat) else n
  match a.type with
  | .i32 => .i32 (Int32.ofInt carried)
  | .i64 => .i64 (Int64.ofInt carried)
  | .f32 => .f32 (UInt32.ofNat n)
  | .f64 => .f64 (UInt64.ofNat n)

/-- The bytes of a stored value. -/
def Access.store (a : Access) (v : Value) : List UInt8 :=
  toBytes a.width (match v with
    | .i32 v => v.toUInt32.toNat
    | .i64 v => v.toUInt64.toNat
    | .f32 bits => bits.toNat
    | .f64 bits => bits.toNat)

end SandboxPool.Wasm
