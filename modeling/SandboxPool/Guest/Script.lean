import SandboxPool.Guest.Environment

/-!
# Guests written as scripts

A script is a list of instructions. It needs no bytecode, which makes it handy for trying out a
host: instructions allocate, call host functions, wait at a gate, fail on purpose, and leave a
note of what they came to. `ScriptRun.advanceFor` carries a run on until it ends, panics, or has to
wait; a run that waits keeps the instruction it waits in.

`weight` bounds the number of steps of a script, so that a run needs no other bound.
-/

namespace SandboxPool

/-- Where an instruction takes a value from. -/
inductive Operand where
  | value (v : Value)
  /-- An argument of the export. -/
  | arg (index : Nat)
  /-- The first value of a variable, with a number added to an `i32`. -/
  | var (name : String) (add : Int32)
  deriving Repr, DecidableEq

/-- A piece of a payload. -/
inductive Part where
  | bytes (data : List UInt8)
  /-- The bytes of a variable from a position on. -/
  | var (name : String) (start : Nat)
  deriving Repr, DecidableEq

/-- What an instruction does. -/
inductive Operation where
  | alloc (length : Nat)
  | writeBytes (payload : List Part)
  | countedString (s : String)
  | terminatedString (s : String)
  | readBytes (pointer : Operand) (length : Nat)
  | memorySize
  | grow (pages : Nat)
  | poke (pointer : Operand) (payload : List Part)
  | call (group name : String) (args : List Operand)
  | callI32 (group name : String) (args : List Operand)
  | sendMessage (payload : List Part)
  | receiveMessage (handle : Operand)
  | gate (name : String)
  | fail (e : Failure)
  | panic (message : String)
  deriving Repr, DecidableEq

/-- The name of an operation in notes. -/
def Operation.name : Operation → String
  | alloc _ => "alloc"
  | writeBytes _ => "write_bytes"
  | countedString _ => "as_string"
  | terminatedString _ => "c_string"
  | readBytes .. => "read_bytes"
  | memorySize => "mem_size"
  | grow _ => "grow"
  | poke .. => "poke"
  | call .. => "call"
  | callI32 .. => "call_i32"
  | sendMessage _ => "send_message"
  | receiveMessage _ => "receive_message"
  | gate _ => "gate"
  | fail _ => "fail"
  | panic _ => "panic"

/-- An operation with the variable that keeps its result. A quiet one leaves no note; one that is
only attempted does not end the script when it fails. -/
structure Action where
  operation : Operation
  result : Option String
  quiet : Bool
  attempt : Bool
  deriving Repr, DecidableEq

/-- An instruction. -/
inductive Instr where
  | perform (a : Action)
  | returns (values : List Operand)
  | repeated (times : Nat) (body : List Instr)
  deriving Repr

/-- A script. -/
abbrev Script := List Instr

mutual

/-- A bound on the steps of an instruction. -/
def Instr.weight : Instr → Nat
  | .perform _ => 1
  | .returns _ => 1
  | .repeated times body => 1 + times * (1 + weightAll body)

/-- A bound on the steps of a script. -/
def Instr.weightAll : List Instr → Nat
  | [] => 0
  | i :: rest => i.weight + weightAll rest

end

/-- A guest module made of scripts. Without pages it has no memory export; its exports stand in
the order of their names. -/
structure ScriptModule where
  name : String
  pages : Option Nat
  imports : List (String × String)
  exports : List (String × Script)
  deriving Repr

/-- A module in diagnostics. -/
def ScriptModule.diagnostic (m : ScriptModule) : String :=
  Text.record "StubModule" [
    ("name", Text.quote m.name),
    ("memory_pages", Text.optional toString m.pages),
    ("imports", Text.brackets (m.imports.map fun i =>
      "(" ++ Text.quote i.1 ++ ", " ++ Text.quote i.2 ++ ")")),
    ("exports", Text.brackets (m.exports.map fun e => Text.quote e.1))]

/-- What a variable holds. -/
inductive Binding where
  | values (vs : List Value)
  | bytes (data : List UInt8)
  deriving Repr, DecidableEq

/-- A script under way: what is left of it, its variables, its arguments and its imports. -/
structure ScriptRun where
  code : List Instr
  vars : List (String × Binding)
  args : List Value
  imports : Imports

/-- How far a guest got. -/
inductive Progress (R : Type) where
  /-- It ended. -/
  | finished (result : Outcome (List Value))
  /-- It panicked. -/
  | panicked (message : String)
  /-- It stands at a closed gate. -/
  | atGate (gate : String) (run : R)
  /-- It waits for a lock client that never answers. -/
  | waiting (gate : String) (run : R)
  /-- It is still running. -/
  | running (run : R)

namespace ScriptRun

/-- The failure of an operand or payload that is not there. -/
def missing {α : Type} : GuestM α := GuestM.refuse (.callFailed "script" "missing operand")

/-- The value of an operand. -/
def operand (r : ScriptRun) : Operand → GuestM Value
  | .value v => return v
  | .arg index =>
    match r.args[index]? with
    | some v => return v
    | none => missing
  | .var name add =>
    match r.vars.lookup name with
    | some (.values (.i32 v :: _)) => return .i32 (v + add)
    | some (.values (v :: _)) => return v
    | _ => missing

/-- The value of an operand as a number; another type counts as -1. -/
def number (r : ScriptRun) (o : Operand) : GuestM Int32 := do
  return (← r.operand o).toI32?.getD (-1)

/-- The bytes of a payload. -/
def payload (r : ScriptRun) (parts : List Part) : GuestM (List UInt8) := do
  let pieces ← parts.mapM fun
    | .bytes data => pure data
    | .var name start =>
      match r.vars.lookup name with
      | some (.bytes data) => pure (data.drop start)
      | _ => missing
  return pieces.flatten

/-- One `i32` as a result. -/
def single (v : Int32) : Binding := .values [.i32 v]

/-- Carries out an operation that does not stand at a gate. -/
def perform (r : ScriptRun) : Operation → GuestM Binding
  | .alloc length => return single (← GuestM.alloc length)
  | .writeBytes parts => do return single (← GuestM.store (← r.payload parts))
  | .countedString s => return single (← GuestM.storeCounted s)
  | .terminatedString s => return single (← GuestM.storeTerminated s)
  | .readBytes p length => do return .bytes (← GuestM.load (← r.number p) length)
  | .memorySize => return single (Int32.ofNat (← GuestM.memorySize))
  | .grow pages => return single (Int32.ofNat (← GuestM.grow pages))
  | .poke p parts => do
    let address ← r.number p
    GuestM.poke address.toInt64.toUInt64.toNat (← r.payload parts)
    return .values []
  | .call group name args => do
    let args ← args.mapM r.operand
    return .values (← GuestM.call r.imports group name args)
  | .callI32 group name args => do
    let args ← args.mapM r.operand
    return single (← GuestM.callI32 r.imports group name args)
  | .sendMessage parts => do
    return single (← GuestM.sendMessage r.imports (← r.payload parts))
  | .receiveMessage handle => do
    return .bytes (← GuestM.receiveMessage r.imports (← r.number handle))
  | .gate _ => return .values []
  | .fail e => throw (.failure e)
  | .panic message => throw (.panic message)

/-- The note of what an instruction came to. -/
def noteOf (a : Action) : Except Failure Binding → Note
  | .ok (.values vs) => .instruction a.operation.name (.values vs)
  | .ok (.bytes data) => .instruction a.operation.name (.bytes data)
  | .error e => .instruction a.operation.name (.failure e)

/-- Ends an instruction: takes the note, keeps the result, and tells what is left to run, or the
failure that ends the script. -/
def settle (r : ScriptRun) (a : Action) (rest : List Instr) (result : Except Failure Binding)
    (s : GuestState) : Except Failure ScriptRun × GuestState :=
  let s := if a.quiet then s else { s with host := s.host.note (noteOf a result) }
  match result with
  | .ok b =>
    let vars := match a.result with
      | some name => (name, b) :: r.vars
      | none => r.vars
    (.ok { r with code := rest, vars }, s)
  | .error e => if a.attempt then (.ok { r with code := rest }, s) else (.error e, s)

/-- Carries a run on for at most `fuel` steps; the gates in `openGates` are passed. -/
def advanceFor (openGates : List String) :
    (fuel : Nat) → ScriptRun → GuestState → Progress ScriptRun × GuestState
  | 0, r, s => (.running r, s)
  | fuel + 1, r, s =>
    match r.code with
    | [] => (.finished (.ok []), s)
    | .returns values :: _ =>
      match (values.mapM r.operand : GuestM (List Value)) s with
      | (.ok vs, s) => (.finished (.ok vs), s)
      | (.error (.failure e), s) => (.finished (.error e), s)
      | (.error (.panic message), s) => (.panicked message, s)
      | (.error (.waiting gate), s) => (.waiting gate r, s)
    | .repeated 0 _ :: rest => advanceFor openGates fuel { r with code := rest } s
    | .repeated (times + 1) body :: rest =>
      advanceFor openGates fuel { r with code := body ++ .repeated times body :: rest } s
    | .perform a :: rest =>
      let closed := match a.operation with
        | .gate name => if openGates.contains name then none else some name
        | _ => none
      match closed with
      | some name => (.atGate name r, s)
      | none =>
        let finish (result : Except Failure Binding) (s : GuestState) :=
          match r.settle a rest result s with
          | (.ok r, s) => advanceFor openGates fuel r s
          | (.error e, s) => (.finished (.error e), s)
        match r.perform a.operation s with
        | (.ok b, s) => finish (.ok b) s
        | (.error (.failure e), s) => finish (.error e) s
        | (.error (.panic message), s) => (.panicked message, s)
        | (.error (.waiting gate), s) => (.waiting gate r, s)

/-- A bound on the steps that are left. -/
def weight (r : ScriptRun) : Nat := Instr.weightAll r.code + 1

/-- Ends the wait of a run with a failure of the instruction it waits in, and carries it on for at
most `fuel` steps. -/
def interruptFor (openGates : List String) (fuel : Nat) (r : ScriptRun) (e : Failure)
    (s : GuestState) : Progress ScriptRun × GuestState :=
  match r.code with
  | .perform a :: rest =>
    match r.settle a rest (.error e) s with
    | (.ok r, s) => advanceFor openGates fuel r s
    | (.error e, s) => (.finished (.error e), s)
  | _ => (.finished (.error e), s)

end ScriptRun
end SandboxPool
