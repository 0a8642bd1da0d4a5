import SandboxPool.Failure
import SandboxPool.Number.Format

/-!
# Values at the call boundary

The scalars a guest and its host exchange, and the types of functions over them. Floats are kept
as their bits, so that they cross unchanged. `FunctionType.check` refuses a call whose arguments
do not have the declared number and types.
-/

namespace SandboxPool

/-- The type of a scalar. -/
inductive ValueType where
  | i32 | i64 | f32 | f64
  deriving Repr, DecidableEq, Inhabited

/-- The text of a type. -/
def ValueType.name : ValueType → String
  | .i32 => "i32"
  | .i64 => "i64"
  | .f32 => "f32"
  | .f64 => "f64"

/-- The type of a text. -/
def ValueType.ofName? (s : String) : Option ValueType :=
  [ValueType.i32, .i64, .f32, .f64].find? fun t => t.name = s

/-- The name of a type in diagnostics. -/
def ValueType.diagnostic : ValueType → String
  | .i32 => "I32"
  | .i64 => "I64"
  | .f32 => "F32"
  | .f64 => "F64"

/-- A scalar. -/
inductive Value where
  | i32 (v : Int32)
  | i64 (v : Int64)
  | f32 (bits : UInt32)
  | f64 (bits : UInt64)
  deriving Repr, DecidableEq, Inhabited

namespace Value

/-- The type of a scalar. -/
def type : Value → ValueType
  | i32 _ => .i32
  | i64 _ => .i64
  | f32 _ => .f32
  | f64 _ => .f64

/-- The number of an `i32`. -/
def toI32? : Value → Option Int32
  | i32 v => some v
  | _ => none

/-- The bits of an `f64`. -/
def toF64? : Value → Option UInt64
  | f64 bits => some bits
  | _ => none

/-- The text of a 64-bit float in diagnostics. -/
def realDiagnostic (bits : UInt64) : String :=
  Number.diagnostic.render Number.double bits.toNat

/-- A scalar in diagnostics. -/
def diagnostic (v : Value) : String :=
  let inner := match v with
    | i32 n => toString n
    | i64 n => toString n
    | f32 bits => Number.diagnostic.render Number.single bits.toNat
    | f64 bits => realDiagnostic bits
  v.type.diagnostic ++ "(" ++ inner ++ ")"

end Value

/-- The parameter and result types of a function. -/
structure FunctionType where
  params : List ValueType
  results : List ValueType
  deriving Repr, DecidableEq, Inhabited

namespace FunctionType

/-- The first argument from `index` on whose type differs. -/
def firstMismatch (index : Nat) : List ValueType → List Value → Option (Nat × ValueType × ValueType)
  | want :: params, arg :: args =>
    if arg.type = want then firstMismatch (index + 1) params args
    else some (index, want, arg.type)
  | _, _ => none

/-- Refuses arguments of the wrong number, then those of a wrong type. -/
def check (t : FunctionType) (function : String) (args : List Value) : Outcome Unit :=
  if args.length ≠ t.params.length then
    refuse (.badArgument function
      (s!"expected {t.params.length} arguments, got {args.length}"))
  else match firstMismatch 0 t.params args with
    | none => .ok ()
    | some (index, want, got) =>
      refuse (.badArgument function
        (s!"argument {index} must be {want.name}, got {got.name}"))

/-- A function type in diagnostics. -/
def diagnostic (t : FunctionType) : String :=
  Text.record "FunctionType"
    [("params", Text.brackets (t.params.map ValueType.diagnostic)),
      ("results", Text.brackets (t.results.map ValueType.diagnostic))]

end FunctionType

/-- The `i32` at `index` of the arguments. -/
def i32Arg (args : List Value) (index : Nat) (argument : String) : Outcome Int32 :=
  match args[index]? with
  | some (.i32 v) => .ok v
  | _ => refuse (.badArgument argument "expected an i32 argument")

/-- The bits of the `f64` at `index` of the arguments. -/
def f64Arg (args : List Value) (index : Nat) (argument : String) : Outcome UInt64 :=
  match args[index]? with
  | some (.f64 bits) => .ok bits
  | _ => refuse (.badArgument argument "expected an f64 argument")

end SandboxPool
