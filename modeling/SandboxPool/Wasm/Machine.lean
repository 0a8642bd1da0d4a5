import SandboxPool.Wasm.Instance
import SandboxPool.Wasm.Arithmetic
import SandboxPool.Guest.Script

/-!
# Running WebAssembly

A machine is a stack of frames; a frame has its variables, the code that is left, the values on
its stack and the blocks it is inside of. `Machine.step` carries out one instruction. It needs no
recursion: entering a block remembers what comes after it, and a branch goes back to what was
remembered.

`Machine.advance` runs a machine for a slice of steps. A guest that uses up its slice is still
running, which is not the same as a trap; it can be given another slice.
-/

namespace SandboxPool.Wasm

/-- A block the code is inside of. A branch to it takes `arity` values and goes on with `again`
if the block is a loop, else with `after`; below its own values lie those of `below`. -/
structure Label where
  arity : Nat
  again : Option (List Instr)
  below : List Val
  after : List Instr

/-- A function under way. -/
structure Frame where
  results : Nat
  locals : Array Val
  labels : List Label
  stack : List Val
  code : List Instr

/-- The functions under way, the innermost apart; `depth` counts those below it. -/
structure Machine where
  frame : Frame
  callers : List Frame
  depth : Nat

/-- The most functions that may be under way. -/
def depthLimit : Nat := 20000

/-- What an instruction leads to. -/
inductive Move where
  | next (m : Machine) (i : Instance)
  | trap (t : Trap)
  | finished (values : List Val)
  /-- Calls a host function; the results go on the stack of the machine. -/
  | host (qualified : String) (f : HostFunction) (args : List Value) (m : Machine)
  /-- Asks for more memory. -/
  | grow (pages : Nat) (m : Machine)
  /-- The code and its stack do not fit together; validated code never comes here. -/
  | stuck

namespace Frame

/-- Puts a value on the stack. -/
def push (f : Frame) (v : Val) : Frame := { f with stack := v :: f.stack }

/-- Leaves the innermost block through its end. -/
def leave (f : Frame) (label : Label) (outer : List Label) : Frame :=
  { f with labels := outer, stack := f.stack ++ label.below, code := label.after }

/-- Enters a block. -/
def enter (f : Frame) (type : FuncType) (isLoop : Bool) (body : List Instr) : Frame :=
  let n := type.params.length
  let label : Label :=
    { arity := if isLoop then n else type.results.length
      again := if isLoop then some body else none
      below := f.stack.drop n
      after := f.code }
  { f with labels := label :: f.labels, stack := f.stack.take n, code := body }

/-- Branches to a label; none if that leaves the function. -/
def branch? (f : Frame) (label : Nat) : Option Frame :=
  match f.labels.drop label with
  | [] => none
  | l :: outer =>
    let taken := f.stack.take l.arity
    match l.again with
    | some body => some { f with labels := l :: outer, stack := taken, code := body }
    | none => some { f with labels := outer, stack := taken ++ l.below, code := l.after }

end Frame

namespace Machine

/-- Leaves the innermost function with the results on its stack. -/
def leave (m : Machine) (i : Instance) : Move :=
  let results := m.frame.stack.take m.frame.results
  match m.callers with
  | [] => .finished results.reverse
  | caller :: callers =>
    .next ⟨{ caller with stack := results ++ caller.stack }, callers, m.depth - 1⟩ i

/-- Branches to a label. -/
def branch (m : Machine) (i : Instance) (label : Nat) : Move :=
  match m.frame.branch? label with
  | some frame => .next { m with frame } i
  | none => m.leave i

/-- The frame of a function with a body; `args` has the last argument first. -/
def frameOf (type : FuncType) (locals : List Val) (body : List Instr) (args : List Val) : Frame :=
  { results := type.results.length
    locals := (args.reverse ++ locals).toArray
    labels := []
    stack := []
    code := body }

/-- The numbers among values. -/
def numbers (vs : List Val) : List Value :=
  vs.filterMap fun
    | .num v => some v
    | .null _ => none

/-- Calls a function with the arguments on the stack. -/
def callFunction (m : Machine) (i : Instance) (function : Nat) : Move :=
  match i.functions[function]? with
  | none => .stuck
  | some (.host qualified f) =>
    let n := f.type.params.length
    let args := (m.frame.stack.take n).reverse
    let frame := { m.frame with stack := m.frame.stack.drop n }
    .host qualified f (numbers args) { m with frame }
  | some (.code type locals body) =>
    if depthLimit ≤ m.depth then .trap .stackExhausted
    else
      let n := type.params.length
      let caller := { m.frame with stack := m.frame.stack.drop n }
      .next ⟨frameOf type locals body (m.frame.stack.take n), caller :: m.callers, m.depth + 1⟩ i

/-- The address an access begins at. -/
def effective (base : Int32) (offset : Nat) : Nat := base.toUInt32.toNat + offset

/-- The trap of an access that leaves a memory of `size` bytes: it names the first byte
outside. -/
def fault (address size : Nat) : Trap :=
  .outOfBounds (if address < size then size else address) size

/-- Loads a value. -/
def loadAt (i : Instance) (a : Access) (base : Int32) (offset : Nat) : Except Trap Value :=
  let address := effective base offset
  match i.memory with
  | none => .error (fault address 0)
  | some memory =>
    if address + a.width ≤ memory.size then .ok (a.load (memory.slice address a.width))
    else .error (fault address memory.size)

/-- Stores a value. -/
def storeAt (i : Instance) (a : Access) (base : Int32) (offset : Nat) (v : Value) :
    Except Trap Instance :=
  let address := effective base offset
  match i.memory with
  | none => .error (fault address 0)
  | some memory =>
    if address + a.width ≤ memory.size then
      .ok { i with memory := some (memory.setAll address (a.store v)) }
    else .error (fault address memory.size)

/-- The size of a table, and the instance after growing it; -1 if it may not grow so far. -/
def growTable (i : Instance) (table delta : Nat) : Int32 × Instance :=
  let old := i.tables.getD table 0
  let max := ((i.module.tables[table]?).bind fun t => t.limits.max).getD 0xffffffff
  if old + delta ≤ min max Instance.tableLimit ∨ delta = 0 then
    (Int32.ofNat old, { i with tables := i.tables.setIfInBounds table (old + delta) })
  else (-1, i)

/-- Carries out an instruction that works on the stack alone. -/
def compute (stack : List Val) : Instr → Option (Except Trap (List Val))
  | .drop => match stack with
    | _ :: s => some (.ok s)
    | _ => none
  | .const v => some (.ok (.num v :: stack))
  | .refNull t => some (.ok (.null t :: stack))
  | .i32Eqz => match stack with
    | .num (.i32 a) :: s => some (.ok (ofBool (a = 0) :: s))
    | _ => none
  | .i64Eqz => match stack with
    | .num (.i64 a) :: s => some (.ok (ofBool (a = 0) :: s))
    | _ => none
  | .i32Rel op => match stack with
    | .num (.i32 b) :: .num (.i32 a) :: s => some (.ok (ofBool (op.holds32 a b) :: s))
    | _ => none
  | .i64Rel op => match stack with
    | .num (.i64 b) :: .num (.i64 a) :: s => some (.ok (ofBool (op.holds64 a b) :: s))
    | _ => none
  | .f32Rel op => match stack with
    | .num (.f32 b) :: .num (.f32 a) :: s =>
      some (.ok (ofBool (op.holds Number.single a.toNat b.toNat) :: s))
    | _ => none
  | .f64Rel op => match stack with
    | .num (.f64 b) :: .num (.f64 a) :: s =>
      some (.ok (ofBool (op.holds Number.double a.toNat b.toNat) :: s))
    | _ => none
  | .i32Op op => match stack with
    | .num (.i32 b) :: .num (.i32 a) :: s => some ((op.apply32 a b).map fun v => .num (.i32 v) :: s)
    | _ => none
  | .i64Op op => match stack with
    | .num (.i64 b) :: .num (.i64 a) :: s => some ((op.apply64 a b).map fun v => .num (.i64 v) :: s)
    | _ => none
  | .i32Wrap => match stack with
    | .num (.i64 a) :: s => some (.ok (.num (.i32 a.toInt32) :: s))
    | _ => none
  | .i64Extend signed => match stack with
    | .num (.i32 a) :: s =>
      let v := if signed then a.toInt64 else a.toUInt32.toUInt64.toInt64
      some (.ok (.num (.i64 v) :: s))
    | _ => none
  | _ => none

/-- Carries out one instruction, which has been taken off the code. -/
def execute (m : Machine) (i : Instance) (op : Instr) : Move :=
  let f := m.frame
  let go (f : Frame) : Move := .next { m with frame := f } i
  match op with
  | .unreachable => .trap .unreachable
  | .nop => go f
  | .block type body => go (f.enter type false body)
  | .loop type body => go (f.enter type true body)
  | .branch type yes no =>
    match f.stack with
    | .num (.i32 c) :: stack =>
      go ({ f with stack }.enter type false (if c = 0 then no else yes))
    | _ => .stuck
  | .br label => m.branch i label
  | .brIf label =>
    match f.stack with
    | .num (.i32 c) :: stack =>
      let m := { m with frame := { f with stack } }
      if c = 0 then .next m i else m.branch i label
    | _ => .stuck
  | .ret => m.leave i
  | .call function => m.callFunction i function
  | .localGet index =>
    match f.locals[index]? with
    | some v => go (f.push v)
    | none => .stuck
  | .localSet index =>
    match f.stack with
    | v :: stack => go { f with stack, locals := f.locals.setIfInBounds index v }
    | [] => .stuck
  | .localTee index =>
    match f.stack with
    | v :: _ => go { f with locals := f.locals.setIfInBounds index v }
    | [] => .stuck
  | .globalGet index =>
    match i.globals[index]? with
    | some v => go (f.push v)
    | none => .stuck
  | .globalSet index =>
    match f.stack with
    | v :: stack =>
      let globals := i.globals.setIfInBounds index v
      .next { m with frame := { f with stack } } { i with globals }
    | [] => .stuck
  | .tableGrow table =>
    match f.stack with
    | .num (.i32 delta) :: _ :: stack =>
      let (old, i) := growTable i table delta.toUInt32.toNat
      .next { m with frame := { f with stack := .num (.i32 old) :: stack } } i
    | _ => .stuck
  | .tableSize table => go (f.push (.num (.i32 (Int32.ofNat (i.tables.getD table 0)))))
  | .load access _ offset =>
    match f.stack with
    | .num (.i32 base) :: stack =>
      match loadAt i access base offset with
      | .ok v => go { f with stack := .num v :: stack }
      | .error t => .trap t
    | _ => .stuck
  | .store access _ offset =>
    match f.stack with
    | .num v :: .num (.i32 base) :: stack =>
      match storeAt i access base offset v with
      | .ok i => .next { m with frame := { f with stack } } i
      | .error t => .trap t
    | _ => .stuck
  | .memorySize =>
    let size := (i.memory.map Memory.size).getD 0
    go (f.push (.num (.i32 (Int32.ofNat (size / pageSize)))))
  | .memoryGrow =>
    match f.stack with
    | .num (.i32 delta) :: stack =>
      .grow delta.toUInt32.toNat { m with frame := { f with stack } }
    | _ => .stuck
  | op =>
    match compute f.stack op with
    | some (.ok stack) => go { f with stack }
    | some (.error t) => .trap t
    | none => .stuck

/-- Carries out the next instruction, or leaves a block or function at its end. -/
def step (m : Machine) (i : Instance) : Move :=
  match m.frame.code with
  | op :: code => execute { m with frame := { m.frame with code } } i op
  | [] =>
    match m.frame.labels with
    | label :: outer => .next { m with frame := m.frame.leave label outer } i
    | [] => m.leave i

/-- The first declared result that a host function did not give, in words. -/
def missingResult? : List ValueType → List Value → Option String
  | [], _ => none
  | want :: _, [] => some ("expected " ++ want.name ++ ", found (ref null nofunc)")
  | want :: types, v :: vs =>
    if v.type = want then missingResult? types vs
    else some ("expected " ++ want.name ++ ", found " ++ v.type.name)

/-- The failure of a host function whose results do not have its type. -/
def badResults (function reason : String) : Failure :=
  Cause.callFailed function
    ("function attempted to return an incompatible value: type mismatch: " ++ reason)

/-- Gives a machine the results of a host function; values beyond the declared ones are left
out. -/
def resume (m : Machine) (type : FunctionType) (values : List Value) : Machine :=
  let taken := (values.take type.results.length).map Val.num
  { m with frame := { m.frame with stack := taken.reverse ++ m.frame.stack } }

/-- Grows the memory of an instance: its old size in pages, or -1 if it may not grow so far. A
growth beyond the limit of the host is logged. -/
def growMemory (i : Instance) (pages : Nat) (j : Journal) : Int32 × Instance × Journal :=
  match i.memory with
  | none => (-1, i, j)
  | some memory =>
    let old := memory.size
    let desired := old + pages * pageSize
    let max := ((i.module.memories.head?.bind Limits.max).getD Module.pageLimit) * pageSize
    -- growing by nothing is answered before any limit; the host's limit comes before the module's
    if pages = 0 then (Int32.ofNat (old / pageSize), i, j)
    else if i.memoryLimit < desired then
      (-1, i, j.log (Instance.rejectedEvent old desired i.memoryLimit))
    else if max < desired then (-1, i, j)
    else (Int32.ofNat (old / pageSize), { i with memory := some (memory.resize desired) }, j)

/-- The steps of one slice. -/
def slice : Nat := 20000000

/-- What a call of a wasm function comes to inside the machine. -/
inductive Pause where
  | finished (values : List Val)
  | failed (e : Failure)
  | panicked (message : String)
  | waiting (gate : String)
  | running (m : Machine)

/-- Runs a machine for at most `fuel` steps; `function` stands for the call in a failure. -/
def runFor (function : String) :
    (fuel : Nat) → Machine → Instance → HostState → Pause × Instance × HostState
  | 0, m, i, h => (.running m, i, h)
  | fuel + 1, m, i, h =>
    match m.step i with
    | .next m i => runFor function fuel m i h
    | .finished values => (.finished values, i, h)
    | .trap t => (.failed (Cause.callFailed function t.message), i, h)
    | .stuck => (.failed (Cause.internal "guest code does not fit its stack"), i, h)
    | .grow pages m =>
      let (answer, i, journal) := growMemory i pages h.journal
      let frame := m.frame.push (.num (.i32 answer))
      runFor function fuel { m with frame } i { h with journal }
    | .host qualified f args m =>
      let (reply, memory, h) := f.call qualified args i.hostMemory h
      let i := i.setHostMemory memory
      match reply with
      | .panicked message => (.panicked message, i, h)
      | .waiting gate => (.waiting gate, i, h)
      | .done (.error e) => (.failed e, i, h)
      | .done (.ok values) =>
        match missingResult? f.type.results values with
        | some reason => (.failed (badResults function reason), i, h)
        | none => runFor function fuel (m.resume f.type values) i h

end Machine
end SandboxPool.Wasm
