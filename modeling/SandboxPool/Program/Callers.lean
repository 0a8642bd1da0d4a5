import SandboxPool.Pool.Execution
import SandboxPool.Config.Settings

/-!
# Callers in parallel

Every caller borrows a context of its own and calls the same export. They are joined one after
another; the first failure is remembered, and each failure cancels all callers that have not come
to an end. Nothing is closed before every caller has been joined.
-/

namespace SandboxPool

/-- What is known of the callers that have been joined. -/
structure Joined where
  /-- The failure of the first caller that failed. -/
  failure : Option Failure
  /-- Callers that have not come to an end are cancelled. -/
  cancelled : Bool
  deriving Repr, DecidableEq

namespace Joined

/-- Nobody has been joined. -/
def nobody : Joined := ⟨none, false⟩

/-- Takes in how a caller ended. -/
def add (j : Joined) (result : Outcome (List Value)) : Joined :=
  match result with
  | .ok _ => j
  | .error e => ⟨j.failure <|> some e, true⟩

/-- The event of a caller that ended. -/
def event (caller : Nat) : Outcome (List Value) → Log.Event
  | .ok values =>
    ⟨.info, .program, "Export finished",
      [("caller", toString caller), ("values", Text.brackets (values.map Value.diagnostic))]⟩
  | .error e =>
    ⟨.error, .program, "Export failed", [("caller", toString caller), ("error", e.message)]⟩

end Joined

/-- A caller: its scope, and how far it got. -/
structure Caller where
  number : Nat
  scope : ScopeId
  /-- The context it has and its call, or the end of one that got no context. -/
  state : Outcome (ContextId × Polled)

namespace World

/-- Lets a caller begin: it borrows a context and begins its call. -/
def startCaller (w : World) (place : Nat) (function : String) (number : Nat) : Caller × World :=
  let (scope, w) := w.freshScope
  match w.borrow place scope with
  | (.error e, w) => (⟨number, scope, .error e⟩, w)
  | (.ok c, w) =>
    match w.prepare c function [] with
    | .error e => (⟨number, scope, .ok (c, .done (.error e))⟩, w)
    | .ok e =>
      let (polled, w) := w.poll e false []
      (⟨number, scope, .ok (c, polled)⟩, w)

/-- Lets callers begin, one after another. -/
def startCallers (place : Nat) (function : String) : List Nat → World → List Caller × World
  | [], w => ([], w)
  | number :: rest, w =>
    let (caller, w) := w.startCaller place function number
    let (callers, w) := startCallers place function rest w
    (caller :: callers, w)

/-- Waits for a caller, who gives the context back. -/
def finishCaller (w : World) (place : Nat) (caller : Caller) : Outcome (List Value) × World :=
  match caller.state with
  | .error e => (.error e, w)
  | .ok (c, .done result) => w.conclude place c (.returned result)
  | .ok (c, .pending e) =>
    let (result, w) := w.drive e
    w.conclude place c (.returned result)

/-- Joins callers in the given order. -/
def joinCallers (place : Nat) : List Caller → Joined → World → Joined × World
  | [], joined, w => (joined, w)
  | caller :: rest, joined, w =>
    let (result, w) := w.finishCaller place caller
    let joined := joined.add result
    let w := w.log (Joined.event caller.number result)
    -- callers joined before have come to their end, so a scope of theirs no longer matters
    let w := if joined.cancelled then rest.foldl (fun w c => w.fire c.scope) w else w
    joinCallers place rest joined w

end World
end SandboxPool
