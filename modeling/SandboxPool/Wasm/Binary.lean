import SandboxPool.Wasm.Module
import SandboxPool.Wasm.Reader

/-!
# The binary format

`Module.ofBytes?` reads a module. Sections have to stand in their order, each at most once, and
be used up to their last byte; custom sections may stand anywhere, and the one with names gives
the module its name. Whether the parts fit together is the validator's concern.
-/

namespace SandboxPool.Wasm

open Reader

/-- What ends a run of instructions. -/
inductive Terminator where
  | done
  | otherwise
  deriving Repr, DecidableEq

/-- The type that a byte stands for. -/
def valTypeOfByte? (b : UInt8) : Option ValType :=
  if b = 0x7f then some (.num .i32)
  else if b = 0x7e then some (.num .i64)
  else if b = 0x7d then some (.num .f32)
  else if b = 0x7c then some (.num .f64)
  else if b = 0x70 then some (.ref .func)
  else if b = 0x6f then some (.ref .foreign)
  else none

/-- A value type. -/
def valType : Reader ValType := do
  match valTypeOfByte? (← byte) with
  | some t => return t
  | none => malformed

/-- A reference type. -/
def refType : Reader RefType := do
  match ← valType with
  | .ref t => return t
  | .num _ => malformed

/-- The type of a block: none, one result, or an index of a type. -/
def blockType (types : List FuncType) : Reader FuncType := fun s =>
  match s with
  | 0x40 :: rest => some (⟨[], []⟩, rest)
  | b :: rest =>
    match valTypeOfByte? b with
    | some t => some (⟨[], [t]⟩, rest)
    | none => (do
        let index ← s33
        match types[index.toNat]? with
        | some t => if 0 ≤ index then return t else malformed
        | none => malformed : Reader FuncType) s
  | [] => none

/-- The alignment and offset of a memory instruction. -/
def memArg (make : (align offset : Nat) → Instr) : Reader Instr := do
  let align ← u32
  return make align (← u32)

/-- The integer operation with a number counted from addition. -/
def intOp? : Nat → Option IntOp
  | 0 => some .add
  | 1 => some .sub
  | 2 => some .mul
  | 3 => some .divS
  | 4 => some .divU
  | 5 => some .remS
  | 6 => some .remU
  | 7 => some .and
  | 8 => some .or
  | 9 => some .xor
  | 10 => some .shl
  | 11 => some .shrS
  | 12 => some .shrU
  | _ => none

/-- The integer comparison with a number counted from equality. -/
def intRel? : Nat → Option IntRel
  | 0 => some .eq
  | 1 => some .ne
  | 2 => some .ltS
  | 3 => some .ltU
  | 4 => some .gtS
  | 5 => some .gtU
  | 6 => some .leS
  | 7 => some .leU
  | 8 => some .geS
  | 9 => some .geU
  | _ => none

/-- The float comparison with a number counted from equality. -/
def floatRel? : Nat → Option FloatRel
  | 0 => some .eq
  | 1 => some .ne
  | 2 => some .lt
  | 3 => some .gt
  | 4 => some .le
  | 5 => some .ge
  | _ => none

/-- The load with an operation code. -/
def loadOf? : Nat → Option Access
  | 0x28 => some ⟨.i32, 4, false⟩
  | 0x29 => some ⟨.i64, 8, false⟩
  | 0x2a => some ⟨.f32, 4, false⟩
  | 0x2b => some ⟨.f64, 8, false⟩
  | 0x2c => some ⟨.i32, 1, true⟩
  | 0x2d => some ⟨.i32, 1, false⟩
  | 0x2e => some ⟨.i32, 2, true⟩
  | 0x2f => some ⟨.i32, 2, false⟩
  | 0x30 => some ⟨.i64, 1, true⟩
  | 0x31 => some ⟨.i64, 1, false⟩
  | 0x32 => some ⟨.i64, 2, true⟩
  | 0x33 => some ⟨.i64, 2, false⟩
  | 0x34 => some ⟨.i64, 4, true⟩
  | 0x35 => some ⟨.i64, 4, false⟩
  | _ => none

/-- The store with an operation code. -/
def storeOf? : Nat → Option Access
  | 0x36 => some ⟨.i32, 4, false⟩
  | 0x37 => some ⟨.i64, 8, false⟩
  | 0x38 => some ⟨.f32, 4, false⟩
  | 0x39 => some ⟨.f64, 8, false⟩
  | 0x3a => some ⟨.i32, 1, false⟩
  | 0x3b => some ⟨.i32, 2, false⟩
  | 0x3c => some ⟨.i64, 1, false⟩
  | 0x3d => some ⟨.i64, 2, false⟩
  | 0x3e => some ⟨.i64, 4, false⟩
  | _ => none

/-- The instruction of an operation code without operands of its own. -/
def plainOf? (op : Nat) : Option Instr :=
  if op = 0x00 then some .unreachable
  else if op = 0x01 then some .nop
  else if op = 0x0f then some .ret
  else if op = 0x1a then some .drop
  else if op = 0x45 then some .i32Eqz
  else if op = 0x50 then some .i64Eqz
  else if op = 0xa7 then some .i32Wrap
  else if op = 0xac then some (.i64Extend true)
  else if op = 0xad then some (.i64Extend false)
  else if 0x46 ≤ op ∧ op ≤ 0x4f then (intRel? (op - 0x46)).map .i32Rel
  else if 0x51 ≤ op ∧ op ≤ 0x5a then (intRel? (op - 0x51)).map .i64Rel
  else if 0x5b ≤ op ∧ op ≤ 0x60 then (floatRel? (op - 0x5b)).map .f32Rel
  else if 0x61 ≤ op ∧ op ≤ 0x66 then (floatRel? (op - 0x61)).map .f64Rel
  else if 0x6a ≤ op ∧ op ≤ 0x76 then (intOp? (op - 0x6a)).map .i32Op
  else if 0x7c ≤ op ∧ op ≤ 0x88 then (intOp? (op - 0x7c)).map .i64Op
  else none

/-- The instruction of an operation code, with its operands, unless it holds others. -/
def simple (op : Nat) : Reader Instr := do
  match plainOf? op with
  | some i => return i
  | none =>
  match loadOf? op, storeOf? op with
  | some a, _ => memArg (.load a)
  | _, some a => memArg (.store a)
  | none, none =>
  match op with
  | 0x0c => return .br (← u32)
  | 0x0d => return .brIf (← u32)
  | 0x10 => return .call (← u32)
  | 0x20 => return .localGet (← u32)
  | 0x21 => return .localSet (← u32)
  | 0x22 => return .localTee (← u32)
  | 0x23 => return .globalGet (← u32)
  | 0x24 => return .globalSet (← u32)
  | 0x3f => expect 0; return .memorySize
  | 0x40 => expect 0; return .memoryGrow
  | 0x41 => return .const (.i32 (Int32.ofInt (← s32)))
  | 0x42 => return .const (.i64 (Int64.ofInt (← s64)))
  | 0x43 => return .const (.f32 (UInt32.ofNat (← fixed 4)))
  | 0x44 => return .const (.f64 (UInt64.ofNat (← fixed 8)))
  | 0xd0 => return .refNull (← refType)
  | 0xfc =>
    match ← u32 with
    | 15 => return .tableGrow (← u32)
    | 16 => return .tableSize (← u32)
    | _ => malformed
  | _ => malformed

/-- Instructions up to their terminator. Every instruction takes a byte, so as many levels of
`fuel` as there are bytes are enough. -/
def instrs (types : List FuncType) : (fuel : Nat) → Reader (List Instr × Terminator)
  | 0 => malformed
  | fuel + 1 => do
    let op := (← byte).toNat
    let continued (i : Instr) : Reader (List Instr × Terminator) := do
      let (rest, t) ← instrs types fuel
      return (i :: rest, t)
    let nested : Reader (List Instr) := do
      match ← instrs types fuel with
      | (body, .done) => return body
      | (_, .otherwise) => malformed
    match op with
    | 0x0b => return ([], .done)
    | 0x05 => return ([], .otherwise)
    | 0x02 =>
      let t ← blockType types
      continued (.block t (← nested))
    | 0x03 =>
      let t ← blockType types
      continued (.loop t (← nested))
    | 0x04 =>
      let t ← blockType types
      match ← instrs types fuel with
      | (yes, .done) => continued (.branch t yes [])
      | (yes, .otherwise) => continued (.branch t yes (← nested))
    | _ => continued (← simple op)

/-- An expression: instructions up to the end of a block. -/
def expression (types : List FuncType) : Reader (List Instr) := do
  match ← instrs types (← get).length with
  | (body, .done) => return body
  | (_, .otherwise) => malformed

/-- A function type. -/
def funcType : Reader FuncType := do
  expect 0x60
  let params ← vector valType
  return ⟨params, ← vector valType⟩

/-- The limits of a table or memory. -/
def limits : Reader Limits := do
  match ← byte with
  | 0 => return ⟨← u32, none⟩
  | 1 =>
    let min ← u32
    return ⟨min, some (← u32)⟩
  | _ => malformed

/-- An imported function. -/
def funcImport : Reader FuncImport := do
  let group ← name
  let item ← name
  expect 0
  return ⟨group, item, ← u32⟩

/-- The type of a table. -/
def tableType : Reader TableType := do
  let element ← refType
  return ⟨element, ← limits⟩

/-- A global variable. -/
def global (types : List FuncType) : Reader Global := do
  let type ← valType
  match ← byte with
  | 0 => return ⟨type, false, ← expression types⟩
  | 1 => return ⟨type, true, ← expression types⟩
  | _ => malformed

/-- An export. -/
def exportItem : Reader Export := do
  let item ← name
  let kind ← match ← byte with
    | 0 => pure ExportKind.func
    | 1 => pure .table
    | 2 => pure .memory
    | 3 => pure .global
    | _ => malformed
  return ⟨item, kind, ← u32⟩

/-- The most variables a function may have beside its parameters. -/
def localLimit : Nat := 50000

/-- Variables of one type, with their number. -/
def localGroup : Reader (Nat × ValType) := do
  let n ← u32
  return (n, ← valType)

/-- A function's body, in the number of bytes that stands before it. -/
def code (types : List FuncType) : Reader Code := do
  let data ← bytes (← u32)
  let body : Reader Code := do
    let groups ← vector localGroup
    if localLimit < groups.foldl (fun n g => n + g.1) 0 then malformed
    let locals := (groups.map fun g => List.replicate g.1 g.2).flatten
    return ⟨locals, ← expression types⟩
  match body.runAll data with
  | some c => return c
  | none => malformed

/-- A data segment. -/
def segment (types : List FuncType) : Reader Segment := do
  let offset ← match ← u32 with
    | 0 => some <$> expression types
    | 1 => pure none
    | 2 => do
      expect 0
      some <$> expression types
    | _ => malformed
  return ⟨offset, ← bytes (← u32)⟩

/-- A section: its number and its bytes. -/
structure Section where
  id : UInt8
  body : List UInt8

/-- One section. -/
def sectionItem : Reader Section := do
  let id ← byte
  return ⟨id, ← bytes (← u32)⟩

/-- Sections up to the end of the bytes. -/
def sections : (fuel : Nat) → Reader (List Section)
  | 0 => malformed
  | fuel + 1 => do
    if (← get).isEmpty then return []
    let s ← sectionItem
    return s :: (← sections fuel)

/-- The place of a section in the order of sections. -/
def Section.rank (s : Section) : Nat :=
  if s.id = 12 then 10 else if s.id = 10 then 11 else if s.id = 11 then 12 else s.id.toNat

/-- True if the sections stand in their order. -/
def ordered : List Section → Bool
  | a :: b :: rest => a.rank < b.rank && ordered (b :: rest)
  | _ => true

/-- The module name in the subsections of a custom section. -/
def nameOf : (fuel : Nat) → Reader (Option String)
  | 0 => return none
  | fuel + 1 => do
    if (← get).isEmpty then return none
    let id ← byte
    let body ← bytes (← u32)
    if id = 0 then
      match name.runAll body with
      | some n => return some n
      | none => malformed
    else nameOf fuel

/-- Takes over what a custom section says. -/
def addCustom (m : Module) (body : List UInt8) : Option Module := do
  let (title, rest) ← name body
  if title ≠ "name" then return m
  match (nameOf (rest.length + 1)) rest with
  | some (some n, _) => return { m with name := some n }
  | _ => return m

/-- Takes over what a section says, and the number of data segments announced. -/
def addSection (m : Module) (s : Section) : Option Module :=
  match s.id with
  | 0 => addCustom m s.body
  | 1 => do return { m with types := ← (vector funcType).runAll s.body }
  | 2 => do return { m with imports := ← (vector funcImport).runAll s.body }
  | 3 => do return { m with functions := ← (vector u32).runAll s.body }
  | 4 => do return { m with tables := ← (vector tableType).runAll s.body }
  | 5 => do return { m with memories := ← (vector limits).runAll s.body }
  | 6 => do return { m with globals := ← (vector (global m.types)).runAll s.body }
  | 7 => do return { m with exports := ← (vector exportItem).runAll s.body }
  | 8 => do return { m with start := some (← u32.runAll s.body) }
  | 10 => do return { m with codes := ← (vector (code m.types)).runAll s.body }
  | 11 => do return { m with segments := ← (vector (segment m.types)).runAll s.body }
  | 12 => do
    let _ ← u32.runAll s.body
    return m
  | _ => none

/-- The first bytes of a module: its mark and its version. -/
def header : List UInt8 := [0x00, 0x61, 0x73, 0x6d, 0x01, 0x00, 0x00, 0x00]

/-- Reads a module. -/
def Module.ofBytes? (data : List UInt8) : Option Module := do
  if data.take 8 ≠ header then none
  let (parts, _) ← sections (data.length + 1) (data.drop 8)
  if ¬ ordered (parts.filter fun s => s.id ≠ 0) then none
  let m ← parts.foldlM addSection Module.empty
  let announced := parts.find? fun s => s.id = 12
  match announced.bind fun s => u32.runAll s.body with
  | some n => if n = m.segments.length then some m else none
  | none => some m

end SandboxPool.Wasm
