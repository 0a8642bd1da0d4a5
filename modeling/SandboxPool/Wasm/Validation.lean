import SandboxPool.Wasm.Binary

/-!
# Which modules are well formed

Every index has to name something, constants have to be constant, and a body has to leave on the
stack what its type says. `Context.check` follows the types on the stack; after an instruction that
never goes on, whatever is asked for is there.
-/

namespace SandboxPool.Wasm

/-- The types on the stack of a block, the top first. Below them, an open stack holds whatever is
asked for. -/
structure StackTypes where
  types : List ValType
  isOpen : Bool
  deriving Repr, DecidableEq

namespace StackTypes

/-- Takes a value of a type off the stack. -/
def pop? (t : ValType) (s : StackTypes) : Option StackTypes :=
  match s.types with
  | top :: rest => if top = t then some { s with types := rest } else none
  | [] => if s.isOpen then some s else none

/-- Takes values off the stack, the last one first. -/
def popAll? (ts : List ValType) (s : StackTypes) : Option StackTypes :=
  ts.reverse.foldlM (fun s t => s.pop? t) s

/-- Takes a value of any type off the stack. -/
def popAny? (s : StackTypes) : Option StackTypes :=
  match s.types with
  | _ :: rest => some { s with types := rest }
  | [] => if s.isOpen then some s else none

/-- Puts values on the stack, the first one first. -/
def push (ts : List ValType) (s : StackTypes) : StackTypes :=
  { s with types := ts.reverse ++ s.types }

/-- What is on the stack where the code never comes. -/
def never : StackTypes := ⟨[], true⟩

/-- True if just values of these types are left. -/
def endsWith (ts : List ValType) (s : StackTypes) : Bool :=
  match s.popAll? ts with
  | some s => s.types.isEmpty
  | none => false

end StackTypes

/-- What a body may refer to: its module, its variables, the results of its function, and the
types a branch to each label takes, the innermost first. -/
structure Context where
  module : Module
  locals : Array ValType
  results : List ValType
  labels : List (List ValType)

namespace Context

/-- Inside one more block. -/
def within (c : Context) (label : List ValType) : Context := { c with labels := label :: c.labels }

/-- An `i32` on the stack. -/
def i32 : ValType := .num .i32

/-- Takes operands off and puts results on. -/
def apply (params results : List ValType) (s : StackTypes) : Option StackTypes :=
  (s.popAll? params).map (·.push results)

/-- The alignment may not exceed the width, given as its logarithm. -/
def alignOk (a : Access) (align : Nat) : Bool := align ≤ 3 && Nat.pow 2 align ≤ a.width

/-- Follows an instruction that holds no others. -/
def checkSimple (c : Context) (s : StackTypes) : Instr → Option StackTypes
  | .unreachable => some .never
  | .nop => some s
  | .br l => do
    let ts ← c.labels[l]?
    let _ ← s.popAll? ts
    return .never
  | .brIf l => do
    let ts ← c.labels[l]?
    let s ← s.pop? i32
    apply ts ts s
  | .ret => do
    let _ ← s.popAll? c.results
    return .never
  | .call f => do
    let t ← c.module.functionType? f
    apply t.params t.results s
  | .drop => s.popAny?
  | .localGet i => do apply [] [← c.locals[i]?] s
  | .localSet i => do apply [← c.locals[i]?] [] s
  | .localTee i => do
    let t ← c.locals[i]?
    apply [t] [t] s
  | .globalGet i => do apply [] [(← c.module.globals[i]?).type] s
  | .globalSet i => do
    let g ← c.module.globals[i]?
    if g.isMutable then apply [g.type] [] s else none
  | .tableGrow i => do apply [.ref (← c.module.tables[i]?).element, i32] [i32] s
  | .tableSize i => do
    let _ ← c.module.tables[i]?
    apply [] [i32] s
  | .refNull t => apply [] [.ref t] s
  | .load a align _ =>
    if c.module.memories.isEmpty || !alignOk a align then none else apply [i32] [.num a.type] s
  | .store a align _ =>
    if c.module.memories.isEmpty || !alignOk a align then none else apply [i32, .num a.type] [] s
  | .memorySize => if c.module.memories.isEmpty then none else apply [] [i32] s
  | .memoryGrow => if c.module.memories.isEmpty then none else apply [i32] [i32] s
  | .const v => apply [] [.num v.type] s
  | .i32Eqz => apply [i32] [i32] s
  | .i64Eqz => apply [.num .i64] [i32] s
  | .i32Rel _ => apply [i32, i32] [i32] s
  | .i64Rel _ => apply [.num .i64, .num .i64] [i32] s
  | .f32Rel _ => apply [.num .f32, .num .f32] [i32] s
  | .f64Rel _ => apply [.num .f64, .num .f64] [i32] s
  | .i32Op _ => apply [i32, i32] [i32] s
  | .i64Op _ => apply [.num .i64, .num .i64] [.num .i64] s
  | .i32Wrap => apply [.num .i64] [i32] s
  | .i64Extend _ => apply [i32] [.num .i64] s
  | .block .. | .loop .. | .branch .. => none

/-- The stack a block begins with. -/
def entry (t : FuncType) : StackTypes := ⟨t.params.reverse, false⟩

/-- True if just the results of a block are left at its end. -/
def leaves (t : FuncType) (last : Option StackTypes) : Bool :=
  last.any fun s => s.endsWith t.results

mutual

/-- Follows an instruction. Branches to a block take its results, branches to a loop its
parameters. -/
def check (c : Context) (s : StackTypes) : Instr → Option StackTypes
  | .block t body =>
    if leaves t ((c.within t.results).checkAll (entry t) body) then apply t.params t.results s
    else none
  | .loop t body =>
    if leaves t ((c.within t.params).checkAll (entry t) body) then apply t.params t.results s
    else none
  | .branch t yes no => do
    let s ← s.pop? i32
    if leaves t ((c.within t.results).checkAll (entry t) yes) &&
        leaves t ((c.within t.results).checkAll (entry t) no) then
      apply t.params t.results s
    else none
  | i => c.checkSimple s i

/-- Follows instructions one after another. -/
def checkAll (c : Context) (s : StackTypes) : List Instr → Option StackTypes
  | [] => some s
  | i :: rest => (c.check s i).bind fun s => c.checkAll s rest

end

/-- True if a function's body turns its empty stack into its results. -/
def checkBody (c : Context) (body : List Instr) : Bool :=
  leaves ⟨[], c.results⟩ ((c.within c.results).checkAll ⟨[], false⟩ body)

end Context

/-- The value of a constant expression; no imports are global variables. -/
def constant? : List Instr → Option Val
  | [.const v] => some (.num v)
  | [.refNull t] => some (.null t)
  | _ => none

namespace Module

/-- The most pages of a memory. -/
def pageLimit : Nat := 65536

/-- True if the least size is not above the greatest, and neither above `bound`. -/
def limitsOk (l : Limits) (bound : Nat) : Bool :=
  l.min ≤ bound && l.max.all fun max => l.min ≤ max && max ≤ bound

/-- True if a constant expression has a type. -/
def constantOk (type : ValType) (body : List Instr) : Bool :=
  (constant? body).any fun v => v.type = type

/-- True if an export names something. -/
def exportOk (m : Module) (e : Export) : Bool :=
  match e.kind with
  | .func => e.index < m.functionTypes.length
  | .table => e.index < m.tables.length
  | .memory => e.index < m.memories.length
  | .global => e.index < m.globals.length

/-- True if a segment goes into the memory at a constant place. -/
def segmentOk (m : Module) (s : Segment) : Bool :=
  match s.offset with
  | none => true
  | some body => !m.memories.isEmpty && constantOk (.num .i32) body

/-- True if a function's body has its type. -/
def functionOk (m : Module) (type : Nat) (code : Code) : Bool :=
  match m.types[type]? with
  | none => false
  | some t =>
    let locals := (t.params ++ code.locals).toArray
    Context.checkBody ⟨m, locals, t.results, []⟩ code.body

/-- True if a module is well formed. -/
def isValid (m : Module) : Bool :=
  m.functionTypes.all (· < m.types.length) &&
  m.functions.length = m.codes.length &&
  m.memories.length ≤ 1 &&
  m.memories.all (limitsOk · pageLimit) &&
  m.tables.all (fun t => limitsOk t.limits 0xffffffff) &&
  m.globals.all (fun g => constantOk g.type g.value) &&
  m.exports.all m.exportOk &&
  (m.exports.map Export.name).eraseDups.length = m.exports.length &&
  m.start.all (fun f => (m.functionType? f).any fun t => t.params.isEmpty && t.results.isEmpty) &&
  m.segments.all m.segmentOk &&
  (m.functions.zip m.codes).all fun p => m.functionOk p.1 p.2

/-- Reads a well formed module. -/
def compile? (data : List UInt8) : Option Module :=
  (Module.ofBytes? data).filter isValid

end Module
end SandboxPool.Wasm
