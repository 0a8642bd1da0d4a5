import SandboxPool.Duration
import SandboxPool.Text.Quoted

/-!
# What can go wrong

Every fallible operation reports a `Failure`: a `Cause` with the facts of this one failure, and
the texts of the causes behind it. `Cause.kind` sorts the causes into the few kinds a caller
bases its decisions on; only a timeout or a cancellation is worth another try with a fresh
context. Two failures count as equal if their causes are, whatever stands behind them.
-/

namespace SandboxPool

/-- Why an operation failed. -/
inductive Cause where
  /-- The guest module could not be compiled. -/
  | compilation (reason : String)
  /-- The guest module could not be instantiated. -/
  | instantiation (reason : String)
  /-- The guest exports no memory of that name. -/
  | memoryMissing (name : String)
  /-- A capability could not be bound. -/
  | registration (group reason : String)
  /-- Two capabilities define the same function. -/
  | duplicateFunction (group name : String)
  /-- A configured value is unusable. -/
  | configuration (field reason : String)
  /-- The pool takes no more callers. -/
  | shuttingDown
  /-- Guest or host code refused the call. -/
  | callFailed (function reason : String)
  /-- Bytes are no message of the expected type. -/
  | undecodable (messageType reason : String)
  /-- A message breaks a rule of its domain. -/
  | invalid (reason : String)
  /-- The deadline of a call passed. -/
  | timedOut (function : String) (limit : Duration)
  /-- The caller gave up. -/
  | cancelled
  /-- A value that crossed the boundary was rejected. -/
  | badArgument (argument reason : String)
  /-- A handle is not live in this borrow. -/
  | staleHandle (handle : Int32)
  /-- A memory access leaves the memory. -/
  | outOfBounds (offset length size : Nat)
  /-- The guest exports no function of that name. -/
  | exportMissing (name : String)
  /-- A guest or a callback panicked. -/
  | fault (reason : String)
  /-- The pool broke one of its own rules. -/
  | internal (message : String)
  deriving Repr, DecidableEq, Inhabited

/-- The kinds of failure a caller tells apart. -/
inductive FailureKind where
  | construction | borrow | call | timeout | cancellation | argument | bounds | notImplemented
  | fault
  deriving Repr, DecidableEq

/-- The text of a kind. -/
def FailureKind.name : FailureKind → String
  | .construction => "construction"
  | .borrow => "borrow"
  | .call => "call"
  | .timeout => "timeout"
  | .cancellation => "cancellation"
  | .argument => "invalid-argument"
  | .bounds => "bounds"
  | .notImplemented => "not-implemented"
  | .fault => "fault"

namespace Cause

/-- The kind a cause belongs to. -/
def kind : Cause → FailureKind
  | compilation _ | instantiation _ | memoryMissing _ | registration .. | duplicateFunction ..
  | configuration .. => .construction
  | shuttingDown => .borrow
  | callFailed .. | undecodable .. | invalid _ => .call
  | timedOut .. => .timeout
  | cancelled => .cancellation
  | badArgument .. | staleHandle _ => .argument
  | outOfBounds .. => .bounds
  | exportMissing _ => .notImplemented
  | fault _ | internal _ => .fault

/-- The words for a cause. -/
def message : Cause → String
  | compilation reason => "failed to compile guest module: " ++ reason
  | instantiation reason =>
    "failed to instantiate guest module: " ++ reason ++
      "; check that every import is provided by a configured capability"
  | memoryMissing name => "guest module does not export memory '" ++ name ++ "'"
  | registration group reason =>
    "capability '" ++ group ++ "' failed to register: " ++ reason
  | duplicateFunction group name =>
    "function '" ++ group ++ "." ++ name ++ "' is registered by more than one capability"
  | configuration field reason => "invalid configuration for '" ++ field ++ "': " ++ reason
  | shuttingDown => "execution context pool is closed; cannot accept new calls"
  | callFailed function reason => "function '" ++ function ++ "' failed: " ++ reason
  | undecodable messageType reason => "failed to decode " ++ messageType ++ ": " ++ reason
  | invalid reason => "validation failed: " ++ reason
  | timedOut function limit =>
    "guest function '" ++ function ++ "' timed out after " ++ toString limit.millis ++
      " ms; retry with a fresh context or raise the timeout"
  | cancelled => "call was cancelled by the caller"
  | badArgument argument reason => "invalid argument '" ++ argument ++ "': " ++ reason
  | staleHandle handle =>
    "handle " ++ toString handle ++ " does not belong to the current call; " ++
      "handles are only valid within the call that produced them"
  | outOfBounds offset length size =>
    "memory access of " ++ toString length ++ " bytes at offset " ++ toString offset ++
      " exceeds guest memory size " ++ toString size
  | exportMissing name => "guest module does not implement '" ++ name ++ "'"
  | fault reason => "call faulted: " ++ reason
  | internal message => "internal runtime error: " ++ message

/-- The name of a cause in diagnostics. -/
def name : Cause → String
  | compilation _ => "CompilationFailed"
  | instantiation _ => "InstantiationFailed"
  | memoryMissing _ => "MemoryNotFound"
  | registration .. => "TraitRegistrationFailed"
  | duplicateFunction .. => "DuplicateFunction"
  | configuration .. => "InvalidConfiguration"
  | shuttingDown => "ShuttingDown"
  | callFailed .. => "CallFailed"
  | undecodable .. => "DecodeFailed"
  | invalid _ => "ValidationFailed"
  | timedOut .. => "ExecutionTimeout"
  | cancelled => "Cancelled"
  | badArgument .. => "InvalidArgument"
  | staleHandle _ => "StaleHandle"
  | outOfBounds .. => "OutOfBounds"
  | exportMissing _ => "ExportNotFound"
  | fault _ => "Fault"
  | internal _ => "Internal"

/-- The facts of a cause in diagnostics, in order. -/
def fields : Cause → List (String × String)
  | compilation reason | instantiation reason | invalid reason | fault reason =>
    [("reason", Text.quote reason)]
  | memoryMissing name | exportMissing name => [("name", Text.quote name)]
  | registration group reason => [("group", Text.quote group), ("reason", Text.quote reason)]
  | duplicateFunction group name => [("group", Text.quote group), ("name", Text.quote name)]
  | configuration field reason => [("field", Text.quote field), ("reason", Text.quote reason)]
  | callFailed function reason =>
    [("function", Text.quote function), ("reason", Text.quote reason)]
  | undecodable messageType reason =>
    [("message_type", Text.quote messageType), ("reason", Text.quote reason)]
  | timedOut function limit =>
    [("function", Text.quote function), ("duration", limit.diagnostic)]
  | badArgument argument reason =>
    [("argument", Text.quote argument), ("reason", Text.quote reason)]
  | staleHandle handle => [("handle", toString handle)]
  | outOfBounds offset length size =>
    [("offset", toString offset), ("length", toString length), ("memory_size", toString size)]
  | internal message => [("message", Text.quote message)]
  | shuttingDown | cancelled => []

/-- A cause in diagnostics. -/
def diagnostic (c : Cause) : String :=
  Text.record c.name c.fields

/-- The cause of a name with its facts, which are looked up by their names. A name that stands for
no cause is an internal one. -/
def ofFacts (name : String) (text : String → String) (number : String → Int) : Cause :=
  match name with
  | "CompilationFailed" => compilation (text "reason")
  | "InstantiationFailed" => instantiation (text "reason")
  | "MemoryNotFound" => memoryMissing (text "name")
  | "TraitRegistrationFailed" => registration (text "group") (text "reason")
  | "DuplicateFunction" => duplicateFunction (text "group") (text "name")
  | "InvalidConfiguration" => configuration (text "field") (text "reason")
  | "ShuttingDown" => shuttingDown
  | "CallFailed" => callFailed (text "function") (text "reason")
  | "DecodeFailed" => undecodable (text "message_type") (text "reason")
  | "ValidationFailed" => invalid (text "reason")
  | "ExecutionTimeout" => timedOut (text "function") (.ofMicros (number "micros").toNat)
  | "Cancelled" => cancelled
  | "InvalidArgument" => badArgument (text "argument") (text "reason")
  | "StaleHandle" => staleHandle (Int32.ofInt (number "handle"))
  | "OutOfBounds" =>
    outOfBounds (number "offset").toNat (number "length").toNat (number "memory_size").toNat
  | "ExportNotFound" => exportMissing (text "name")
  | "Fault" => fault (text "reason")
  | _ => internal (text "message")

end Cause

/-- A failure: its cause, and the texts of the causes behind it, the nearest one first. -/
structure Failure where
  cause : Cause
  behind : List String
  deriving Repr, DecidableEq, Inhabited

namespace Failure

instance : Coe Cause Failure := ⟨fun c => ⟨c, []⟩⟩

/-- The kind of a failure. -/
def kind (e : Failure) : FailureKind := e.cause.kind

/-- The words for a failure. -/
def message (e : Failure) : String := e.cause.message

/-- The text of the nearest cause behind the failure. -/
def source? (e : Failure) : Option String := e.behind.head?

/-- The failure with the texts `behind` behind it, in place of what stood there. -/
def because (e : Failure) (behind : List String) : Failure := ⟨e.cause, behind⟩

/-- The texts a failure adds when it stands behind another one. -/
def chain (e : Failure) : List String := e.message :: e.behind

/-- Equality of failures looks at the causes only. -/
def same (a b : Failure) : Bool := a.cause = b.cause

/-- True of failures that a fresh context may get past. -/
def isRetriable (e : Failure) : Bool := e.kind = .timeout || e.kind = .cancellation

/-- A failure in diagnostics. -/
def diagnostic (e : Failure) : String :=
  Text.record "SandboxError"
    [("kind", e.cause.diagnostic), ("source", Text.optional Text.quote e.source?)]

end Failure

/-- The result of an operation that may fail. -/
abbrev Outcome (α : Type) := Except Failure α

/-- Fails with a cause and nothing behind it. -/
def refuse {α : Type} (c : Cause) : Outcome α := .error ⟨c, []⟩

end SandboxPool
