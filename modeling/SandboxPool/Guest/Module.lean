import SandboxPool.Wasm.Machine

/-!
# Guest modules of either kind

An engine compiles bytes into a module: the script engine looks a script up by its name, the
other one reads WebAssembly. The rest of the library sees only `GuestModule`, `GuestInstance` and
`GuestRun`, a call under way that can be carried on step by step.
-/

namespace SandboxPool

/-- A compiled module. -/
inductive GuestModule where
  | script (m : ScriptModule)
  | wasm (m : Wasm.Module)
  deriving Inhabited

/-- What compiles modules: scripts by name, or WebAssembly with a limit on memory in bytes. -/
inductive Engine where
  | scripts (modules : List ScriptModule)
  | wasm (memoryLimit : Nat)
  deriving Inhabited

namespace Engine

/-- Compiles bytes. -/
def compile (e : Engine) (data : List UInt8) (j : Journal) : Outcome GuestModule × Journal :=
  match e with
  | scripts modules =>
    match Text.Utf8.decode data with
    | .error fault =>
      (.error ⟨.compilation "module bytes are not a stub module name", [fault.message]⟩, j)
    | .ok name =>
      match modules.find? fun m => m.name = name with
      | some m => (.ok (.script m), j)
      | none => (refuse (.compilation ("unknown stub module '" ++ name ++ "'")), j)
  | wasm _ =>
    match Wasm.Module.compile? data with
    | some m => (.ok (.wasm m), j.log m.compiledEvent)
    | none => (refuse (.compilation "malformed or invalid module"), j)

/-- The engine with one more script, in place of one with the same name. -/
def register (e : Engine) (m : ScriptModule) : Engine :=
  match e with
  | scripts modules => scripts ((modules.filter fun o => o.name ≠ m.name) ++ [m])
  | wasm limit => wasm limit

/-- The limit on the memory of an instance, in bytes. -/
def memoryLimit : Engine → Nat
  | scripts _ => 0
  | wasm limit => limit

/-- An engine in diagnostics. -/
def diagnostic : Engine → String
  | scripts modules =>
    let entries := modules.map fun m => Text.quote m.name ++ ": " ++ m.diagnostic
    let table := "\x7b" ++ Text.separated ", " entries ++ "\x7d"
    Text.record "StubEngine" [("modules", Text.record "Mutex" [("data", table)])]
  | wasm limit => Text.openRecord "WasmtimeEngine" [("memory_limit", toString limit)]

end Engine

/-- A module in diagnostics. -/
def GuestModule.diagnostic : GuestModule → String
  | script m => m.diagnostic
  | wasm m => m.diagnostic

/-- An instance of a module. -/
inductive GuestInstance where
  | script (module : ScriptModule) (heap : Option Heap) (imports : Imports)
  | wasm (i : Wasm.Instance)

/-- A call of a guest export under way. -/
inductive GuestRun where
  /-- A script; `own` is its heap if the instance has none. -/
  | script (run : ScriptRun) (own : Option Heap)
  /-- A WebAssembly call that has not begun. -/
  | call (function : String) (index : Nat) (args : List Value)
  /-- A WebAssembly call that has used up a slice. -/
  | machine (function : String) (m : Wasm.Machine)
  /-- A WebAssembly call inside a host function that does not return. -/
  | suspended

namespace GuestInstance

/-- The name under which memories are exported. -/
def memoryExport : String := "memory"

/-- True if the guest exports a memory under the name. -/
def exportsMemory (g : GuestInstance) (name : String) : Bool :=
  name = memoryExport && match g with
    | script _ heap _ => heap.isSome
    | wasm i => i.exportedMemory?.isSome

/-- The exported memory. -/
def memory? (g : GuestInstance) : Option Memory :=
  match g with
  | script _ heap _ => heap.map Heap.memory
  | wasm i => i.exportedMemory?

/-- The instance with its exported memory replaced. -/
def setMemory (g : GuestInstance) (memory : Memory) : GuestInstance :=
  match g with
  | script m heap imports => script m (heap.map fun h => { h with memory }) imports
  | wasm i => wasm (i.setHostMemory memory)

/-- The memory under a name, or the refusal of a name under which there is none. -/
def memory (g : GuestInstance) (name : String) : Outcome Memory :=
  match g.exportsMemory name, g.memory? with
  | true, some m => .ok m
  | _, _ => refuse (.memoryMissing name)

/-- True if the guest exports a function under the name. -/
def hasFunction (g : GuestInstance) (name : String) : Bool :=
  match g with
  | script m _ _ => (m.exports.lookup name).isSome
  | wasm i => (i.export? name).isSome

/-- Refuses a function that the guest does not export. -/
def function (g : GuestInstance) (name : String) : Outcome Unit :=
  if g.hasFunction name then .ok () else refuse (.exportMissing name)

/-- Begins a call. -/
def start (g : GuestInstance) (name : String) (args : List Value) : Outcome GuestRun :=
  match g with
  | script m heap imports =>
    match m.exports.lookup name with
    | some code =>
      .ok (.script ⟨code, [], args, imports⟩ (if heap.isNone then some (.ofPages 0) else none))
    | none => refuse (.exportMissing name)
  | wasm i =>
    match i.export? name with
    | some index => .ok (.call name index args)
    | none => refuse (.exportMissing name)

/-- An instance in diagnostics. -/
def diagnostic : GuestInstance → String
  | script m heap _ =>
    Text.openRecord "StubInstance"
      [("module", Text.quote m.name), ("memory", Text.optional Heap.diagnostic heap)]
  | wasm i => i.diagnostic

end GuestInstance

/-- A function in diagnostics. -/
def functionDiagnostic (name : String) : String :=
  Text.openRecord "NativeFunction" [("name", Text.quote name)]

namespace GuestRun

open Wasm

/-- The failure of a WebAssembly call whose arguments do not have its type. -/
def badArguments? (function : String) (params : List ValType) (args : List Value) :
    Option Failure :=
  if args.length ≠ params.length then
    some (Cause.callFailed function
      (s!"expected {params.length} arguments, got {args.length}"))
  else
    ((params.zip args).find? fun p => p.1 ≠ .num p.2.type).map fun p =>
      Cause.callFailed function
        ("argument type mismatch: type mismatch: expected " ++ p.1.name ++ ", found " ++
          p.2.type.name)

/-- The values of a call's results; a reference cannot cross the boundary. -/
def crossing : List Val → Outcome (List Value)
  | [] => .ok []
  | .num v :: rest => (crossing rest).map (v :: ·)
  | .null t :: _ =>
    let name := match t with
      | .func => "FuncRef"
      | .foreign => "ExternRef"
    refuse (.badArgument "value" ("unsupported boundary value " ++ name ++ "(None)"))

/-- How far a call got when its machine paused. -/
def ofPause (function : String) : Machine.Pause → Progress GuestRun
  | .finished values => .finished (crossing values)
  | .failed e => .finished (.error e)
  | .panicked message => .panicked message
  | .waiting gate => .waiting gate .suspended
  | .running m => .running (.machine function m)

/-- Runs a machine for at most `fuel` steps. -/
def runMachine (function : String) (fuel : Nat) (m : Machine) (i : Wasm.Instance) (h : HostState) :
    Progress GuestRun × GuestInstance × HostState :=
  let (pause, i, h) := Machine.runFor function fuel m i h
  (ofPause function pause, .wasm i, h)

/-- Begins a WebAssembly call and runs it for at most `fuel` steps. An export that is a host
function is called without a memory. -/
def enter (function : String) (fuel index : Nat) (args : List Value) (i : Wasm.Instance)
    (h : HostState) : Progress GuestRun × GuestInstance × HostState :=
  match i.functions[index]? with
  | none => (.finished (refuse (.exportMissing function)), .wasm i, h)
  | some (.host qualified f) =>
    match badArguments? function (f.type.params.map ValType.num) args with
    | some e => (.finished (.error e), .wasm i, h)
    | none =>
      let (reply, _, h) := f.call qualified args ⟨0, ∅⟩ h
      match reply with
      | .panicked message => (.panicked message, .wasm i, h)
      | .waiting gate => (.waiting gate .suspended, .wasm i, h)
      | .done (.error e) => (.finished (.error e), .wasm i, h)
      | .done (.ok values) =>
        match Machine.missingResult? f.type.results values with
        | some reason => (.finished (.error (Machine.badResults function reason)), .wasm i, h)
        | none => (.finished (.ok (values.take f.type.results.length)), .wasm i, h)
  | some (.code type locals body) =>
    match badArguments? function type.params args with
    | some e => (.finished (.error e), .wasm i, h)
    | none =>
      let frame := Machine.frameOf type locals body (args.reverse.map Val.num)
      runMachine function fuel ⟨frame, [], 0⟩ i h

/-- Carries a script on, on its own heap or on that of the instance. -/
def onHeap (act : ScriptRun → GuestState → Progress ScriptRun × GuestState) (run : ScriptRun)
    (own : Option Heap) (module : ScriptModule) (heap : Option Heap) (imports : Imports)
    (h : HostState) : Progress GuestRun × GuestInstance × HostState :=
  let working := (own <|> heap).getD (.ofPages 0)
  let (progress, s) := act run ⟨working, h⟩
  let own := own.map fun _ => s.heap
  let heap := if own.isSome then heap else some s.heap
  let progress := match progress with
    | .finished r => .finished r
    | .panicked message => .panicked message
    | .atGate gate run => .atGate gate (.script run own)
    | .waiting gate run => .waiting gate (.script run own)
    | .running run => .running (.script run own)
  (progress, .script module heap imports, s.host)

/-- The steps a call is given at a time: all it may need if it is a script, else a slice. -/
def budget : GuestRun → Nat
  | .script run _ => run.weight
  | _ => Machine.slice

/-- Carries a call on until it ends, panics or waits, for at most `fuel` steps. -/
def advanceFor (openGates : List String) (fuel : Nat) (run : GuestRun) (g : GuestInstance)
    (h : HostState) : Progress GuestRun × GuestInstance × HostState :=
  match run, g with
  | .script run own, .script module heap imports =>
    onHeap (ScriptRun.advanceFor openGates fuel) run own module heap imports h
  | .call function index args, .wasm i => enter function fuel index args i h
  | .machine function m, .wasm i => runMachine function fuel m i h
  | run, g => (.running run, g, h)

/-- Carries a call on until it ends, panics, waits, or has used up its budget. -/
def advance (openGates : List String) (run : GuestRun) (g : GuestInstance) (h : HostState) :
    Progress GuestRun × GuestInstance × HostState :=
  run.advanceFor openGates run.budget g h

/-- Ends the wait of a call with a failure of the host function it is in, and carries it on for
at most `fuel` steps. -/
def interruptFor (openGates : List String) (fuel : Nat) (run : GuestRun) (e : Failure)
    (g : GuestInstance) (h : HostState) : Progress GuestRun × GuestInstance × HostState :=
  match run, g with
  | .script run own, .script module heap imports =>
    onHeap (fun r s => r.interruptFor openGates fuel e s) run own module heap imports h
  | _, g => (.finished (.error e), g, h)

end GuestRun

namespace GuestModule

/-- The reason why the start function of a module failed. A failure of the host is not told
apart. -/
def startFailure (e : Failure) : Failure :=
  match e.cause with
  | .callFailed "" reason => Cause.instantiation reason
  | _ => Cause.instantiation e.message

/-- Makes an instance of a module. Scripts must find every import defined; a WebAssembly module
must pass its limits, and its start function runs at once. -/
def instantiate (m : GuestModule) (imports : Imports) (memoryLimit : Nat) (h : HostState) :
    Outcome GuestInstance × HostState :=
  match m with
  | script s =>
    match s.imports.find? fun i => !imports.contains i.1 i.2 with
    | some (group, name) =>
      let reason :=
        "module '" ++ s.name ++ "' imports '" ++ group ++ "." ++ name ++ "' which is not defined"
      (refuse (.instantiation reason), h)
    | none =>
      let event : Log.Event :=
        ⟨.trace, .scriptEngine, "Stub instance created", [("module", s.name)]⟩
      (.ok (.script s (s.pages.map Heap.ofPages) imports), h.log event)
  | wasm w =>
    let (created, journal) := Wasm.Instance.create w imports memoryLimit h.journal
    let h := { h with journal }
    match created with
    | .error reason => (refuse (.instantiation reason), h)
    | .ok i =>
      match w.start with
      | none => (.ok (.wasm i), h)
      | some index =>
        let (progress, g, h) := GuestRun.enter "" Wasm.Machine.slice index [] i h
        match progress with
        | .finished (.ok _) => (.ok g, h)
        | .finished (.error e) => (.error (startFailure e), h)
        | .panicked message => (refuse (.instantiation message), h)
        | .atGate .. | .waiting .. | .running _ =>
          (refuse (.instantiation "the start function did not return"), h)

end GuestModule
end SandboxPool
