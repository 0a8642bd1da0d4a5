import SandboxPool.Value

/-!
# WebAssembly modules

The parts of a module after its bytes have been read: types, imported functions, functions with
their bodies, tables, a memory, globals, exports, the start function and data segments. Bodies
are trees, a block holds the instructions inside it.
-/

namespace SandboxPool.Wasm

/-- What a reference refers to. Only null references exist here. -/
inductive RefType where
  | func | foreign
  deriving Repr, DecidableEq, Inhabited

/-- The type of a value on the stack. -/
inductive ValType where
  | num (t : ValueType)
  | ref (t : RefType)
  deriving Repr, DecidableEq, Inhabited

/-- The text of a type. -/
def ValType.name : ValType → String
  | .num t => t.name
  | .ref .func => "(ref null func)"
  | .ref .foreign => "(ref null extern)"

/-- A value on the stack. -/
inductive Val where
  | num (v : Value)
  | null (t : RefType)
  deriving Repr, DecidableEq, Inhabited

/-- The type of a value. -/
def Val.type : Val → ValType
  | .num v => .num v.type
  | .null t => .ref t

/-- The value a variable of a type begins with. -/
def ValType.zero : ValType → Val
  | .num .i32 => .num (.i32 0)
  | .num .i64 => .num (.i64 0)
  | .num .f32 => .num (.f32 0)
  | .num .f64 => .num (.f64 0)
  | .ref t => .null t

/-- The type of a function or block. -/
structure FuncType where
  params : List ValType
  results : List ValType
  deriving Repr, DecidableEq, Inhabited

/-- The function type a host function offers. -/
def FuncType.ofHost (t : FunctionType) : FuncType :=
  ⟨t.params.map ValType.num, t.results.map ValType.num⟩

/-- Integer operations with two operands. -/
inductive IntOp where
  | add | sub | mul | divS | divU | remS | remU | and | or | xor | shl | shrS | shrU
  deriving Repr, DecidableEq

/-- Integer comparisons. -/
inductive IntRel where
  | eq | ne | ltS | ltU | gtS | gtU | leS | leU | geS | geU
  deriving Repr, DecidableEq

/-- Float comparisons. -/
inductive FloatRel where
  | eq | ne | lt | gt | le | ge
  deriving Repr, DecidableEq

/-- How a load or store treats memory: the type on the stack, the number of bytes, and whether
the sign is carried on when they are fewer than the type has. -/
structure Access where
  type : ValueType
  width : Nat
  signed : Bool
  deriving Repr, DecidableEq

/-- An instruction. -/
inductive Instr where
  | unreachable
  | nop
  | block (type : FuncType) (body : List Instr)
  | loop (type : FuncType) (body : List Instr)
  | branch (type : FuncType) (yes no : List Instr)
  | br (label : Nat)
  | brIf (label : Nat)
  | ret
  | call (function : Nat)
  | drop
  | localGet (index : Nat)
  | localSet (index : Nat)
  | localTee (index : Nat)
  | globalGet (index : Nat)
  | globalSet (index : Nat)
  | tableGrow (index : Nat)
  | tableSize (index : Nat)
  | refNull (type : RefType)
  | load (access : Access) (align offset : Nat)
  | store (access : Access) (align offset : Nat)
  | memorySize
  | memoryGrow
  | const (v : Value)
  | i32Eqz
  | i64Eqz
  | i32Rel (op : IntRel)
  | i64Rel (op : IntRel)
  | f32Rel (op : FloatRel)
  | f64Rel (op : FloatRel)
  | i32Op (op : IntOp)
  | i64Op (op : IntOp)
  | i32Wrap
  | i64Extend (signed : Bool)
  deriving Repr

/-- The least and, if bounded, the greatest size of a table or memory. -/
structure Limits where
  min : Nat
  max : Option Nat
  deriving Repr, DecidableEq

/-- An imported function; `type` is an index. -/
structure FuncImport where
  group : String
  name : String
  type : Nat
  deriving Repr, DecidableEq

/-- A table of references. -/
structure TableType where
  element : RefType
  limits : Limits
  deriving Repr, DecidableEq

/-- A global variable with its first value. -/
structure Global where
  type : ValType
  isMutable : Bool
  value : List Instr
  deriving Repr

/-- What an export is. -/
inductive ExportKind where
  | func | table | memory | global
  deriving Repr, DecidableEq

/-- An export. -/
structure Export where
  name : String
  kind : ExportKind
  index : Nat
  deriving Repr, DecidableEq

/-- The body of a function, with the types of its variables beside the parameters. -/
structure Code where
  locals : List ValType
  body : List Instr
  deriving Repr

/-- Bytes that go into the memory, unless they have no place. -/
structure Segment where
  offset : Option (List Instr)
  bytes : List UInt8
  deriving Repr

/-- A module; `functions` are indices of types. -/
structure Module where
  name : Option String
  types : List FuncType
  imports : List FuncImport
  functions : List Nat
  tables : List TableType
  memories : List Limits
  globals : List Global
  exports : List Export
  start : Option Nat
  codes : List Code
  segments : List Segment
  deriving Repr, Inhabited

namespace Module

/-- A module without anything. -/
def empty : Module := ⟨none, [], [], [], [], [], [], [], none, [], []⟩

/-- The indices of all function types, imported functions first. -/
def functionTypes (m : Module) : List Nat := m.imports.map FuncImport.type ++ m.functions

/-- The type of a function. -/
def functionType? (m : Module) (function : Nat) : Option FuncType :=
  m.functionTypes[function]?.bind fun t => m.types[t]?

/-- The exported functions with their indices. -/
def exportedFunctions (m : Module) : List (String × Nat) :=
  (m.exports.filter fun e => e.kind = .func).map fun e => (e.name, e.index)

/-- True if a memory is exported under the name. -/
def exportsMemory (m : Module) (name : String) : Bool :=
  m.exports.any fun e => e.name = name ∧ e.kind = .memory

end Module
end SandboxPool.Wasm
