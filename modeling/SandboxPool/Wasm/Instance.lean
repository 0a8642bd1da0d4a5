import SandboxPool.Wasm.Validation
import SandboxPool.Host.Capability
import SandboxPool.Number.Binary

/-!
# Instances of modules

An instance has a memory, global variables and tables of its own, and its imported functions are
tied to host functions. `Instance.link` finds the functions; `Instance.create` sets aside memory
and tables within the limits and fills the memory from the data segments. The start function is
the caller's concern, for it runs guest code.
-/

namespace SandboxPool.Wasm

/-- A function of an instance: the host's, or one with a body. -/
inductive Func where
  | host (qualified : String) (f : HostFunction)
  | code (type : FuncType) (locals : List Val) (body : List Instr)
  deriving Repr

/-- An instance; table elements are all null, so a table is its size. -/
structure Instance where
  module : Module
  functions : Array Func
  memory : Option Memory
  globals : Array Val
  tables : Array Nat
  memoryLimit : Nat

namespace Instance

/-- The most elements a table may have. -/
def tableLimit : Nat := 10000

/-- Ties every import to a host function: first all have to be there, then all have to have the
type the module declares. -/
def link (m : Module) (imports : Imports) : Except String (List Func) := do
  let found ← m.imports.mapM fun i =>
    match imports.get? i.group i.name with
    | some f => .ok (i, f)
    | none => .error ("unknown import: `" ++ i.group ++ "::" ++ i.name ++ "` has not been defined")
  found.mapM fun (i, f) =>
    if m.types[i.type]? = some (FuncType.ofHost f.type) then
      .ok (.host (i.group ++ "." ++ i.name) f)
    else .error ("incompatible import type for `" ++ i.group ++ "::" ++ i.name ++ "`")

/-- The functions with bodies. -/
def ownFunctions (m : Module) : List Func :=
  (m.functions.zip m.codes).filterMap fun (t, code) =>
    (m.types[t]?).map fun type => .code type (code.locals.map ValType.zero) code.body

/-- The event of a memory that would pass its limit. -/
def rejectedEvent (current desired limit : Nat) : Log.Event :=
  ⟨.warn, .wasmEngine, "Guest memory grow rejected: exceeds limit",
    [("current_bytes", toString current), ("desired_bytes", toString desired),
      ("limit_bytes", toString limit)]⟩

/-- The number a constant address stands for. -/
def address : Val → Nat
  | .num (.i32 v) => v.toUInt32.toNat
  | _ => 0

/-- Copies a data segment into the memory. -/
def applySegment (memory : Memory) (s : Segment) : Except String Memory :=
  match s.offset.bind constant? with
  | none => .ok memory
  | some v =>
    match memory.write (address v) s.bytes with
    | .ok memory => .ok memory
    | .error _ => .error "out of bounds memory access"

/-- Sets up an instance, and logs a memory that passes the limit. -/
def create (m : Module) (imports : Imports) (memoryLimit : Nat) (j : Journal) :
    Except String Instance × Journal :=
  match link m imports with
  | .error reason => (.error reason, j)
  | .ok hosts =>
    let size := (m.memories.head?.map Limits.min).getD 0 * pageSize
    if ¬ m.memories.isEmpty ∧ memoryLimit < size then
      (.error "memory minimum size exceeds memory limits", j.log (rejectedEvent 0 size memoryLimit))
    else if m.tables.any fun t => tableLimit < t.limits.min then
      (.error "table minimum size exceeds table limits", j)
    else
      let blank : Memory := ⟨size, ∅⟩
      match m.segments.foldlM applySegment blank with
      | .error reason => (.error reason, j)
      | .ok memory =>
        (.ok
          { module := m
            functions := (hosts ++ ownFunctions m).toArray
            memory := if m.memories.isEmpty then none else some memory
            globals := (m.globals.map fun g => (constant? g.value).getD g.type.zero).toArray
            tables := (m.tables.map fun t => t.limits.min).toArray
            memoryLimit }, j)

/-- The memory the host sees: the one exported under its proper name. -/
def exportedMemory? (i : Instance) : Option Memory :=
  if i.module.exportsMemory "memory" then i.memory else none

/-- The memory a host function sees; without one, an empty one. -/
def hostMemory (i : Instance) : Memory := i.exportedMemory?.getD ⟨0, ∅⟩

/-- The instance after a host function has changed its memory. -/
def setHostMemory (i : Instance) (memory : Memory) : Instance :=
  if i.exportedMemory?.isSome then { i with memory := some memory } else i

/-- The index of an exported function. -/
def export? (i : Instance) (name : String) : Option Nat :=
  i.module.exportedFunctions.lookup name

/-- An instance in diagnostics. -/
def diagnostic (i : Instance) : String :=
  Text.openRecord "WasmtimeInstance" [
    ("has_memory", Text.ofBool i.exportedMemory?.isSome),
    ("exports", Text.brackets (i.module.exportedFunctions.map fun e => Text.quote e.1))]

end Instance

/-- A module in diagnostics. -/
def Module.diagnostic (m : Module) : String :=
  Text.openRecord "WasmtimeModule" [("name", Text.optional Text.quote m.name)]

/-- The event of a module that was compiled. -/
def Module.compiledEvent (m : Module) : Log.Event :=
  ⟨.debug, .wasmEngine, "Guest module compiled",
    [("imports", toString m.imports.length), ("exports", toString m.exports.length)]⟩

end SandboxPool.Wasm
