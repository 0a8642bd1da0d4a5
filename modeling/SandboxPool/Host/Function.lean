import SandboxPool.Host.Tokens
import SandboxPool.Host.Locks
import SandboxPool.Host.Diagnostics
import SandboxPool.Namespace

/-!
# Host functions

A host function is a type and an action. The actions are those of the built-in capabilities, and
a few fixed behaviours for functions that an embedder defines. `HostFunction.call` checks the
arguments against the type and then acts on the calling guest's memory and on the host.
-/

namespace SandboxPool

/-- What a function an embedder defines does. -/
inductive Behaviour where
  | fails (e : Failure)
  | panics (message : String)
  | echoes
  | measuresMemory
  | returns (values : List Value)
  deriving Repr, DecidableEq

/-- What a host function does. -/
inductive HostAction where
  | abort (layout : StringLayout)
  | trace (layout : StringLayout)
  | seed
  | takeToken (store : String) (layout : StringLayout)
  | releaseTokens (store : String) (layout : StringLayout)
  | registerBuffer
  | bufferSize
  | readBuffer
  | discardBuffer
  | upsertLock (client : String)
  | custom (behaviour : Behaviour)
  deriving Repr, DecidableEq

/-- A function guests can call. -/
structure HostFunction where
  type : FunctionType
  action : HostAction
  deriving Repr, DecidableEq

/-- The functions guests can import. -/
abbrev Imports := Namespace HostFunction

namespace HostAction

/-- Carries out an action on a guest's memory and the host. -/
def run (memory : Memory) (args : List Value) (h : HostState) :
    HostAction → HostReply × Memory × HostState
  | abort layout => let (r, h) := Diagnostics.abort layout memory args h; (r, memory, h)
  | trace layout => let (r, h) := Diagnostics.trace layout memory args h; (r, memory, h)
  | seed => let (r, h) := Diagnostics.seed h; (r, memory, h)
  | takeToken store layout =>
    let (r, h) := Tokens.take store layout memory args h; (r, memory, h)
  | releaseTokens store layout =>
    let (r, h) := Tokens.release store layout memory args h; (r, memory, h)
  | registerBuffer =>
    match Buffers.register memory args h with
    | .ok (vs, h) => (.done (.ok vs), memory, h)
    | .error e => (.failed e, memory, h)
  | bufferSize => (.done (Buffers.size args h), memory, h)
  | readBuffer =>
    match Buffers.copyOut memory args h with
    | .ok memory => (.done (.ok []), memory, h)
    | .error e => (.failed e, memory, h)
  | discardBuffer =>
    match Buffers.drop args h with
    | .ok h => (.done (.ok []), memory, h)
    | .error e => (.failed e, memory, h)
  | upsertLock client => let (r, h) := Locks.upsert client args h; (r, memory, h)
  | custom (.fails e) => (.failed e, memory, h)
  | custom (.panics message) => (.panicked message, memory, h)
  | custom .echoes => (.done (.ok args), memory, h)
  | custom .measuresMemory => (.done (.ok [.i32 (Int32.ofNat memory.size)]), memory, h)
  | custom (.returns values) => (.done (.ok values), memory, h)

end HostAction

namespace HostFunction

/-- Checks the arguments and acts; `name` stands for the function in a refusal. -/
def call (f : HostFunction) (name : String) (args : List Value) (memory : Memory)
    (h : HostState) : HostReply × Memory × HostState :=
  match f.type.check name args with
  | .error e => (.failed e, memory, h)
  | .ok () => f.action.run memory args h

/-- A function in diagnostics. -/
def diagnostic (f : HostFunction) : String :=
  Text.openRecord "HostFunction" [("ty", f.type.diagnostic)]

end HostFunction
end SandboxPool
