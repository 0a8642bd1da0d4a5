import SandboxPool.Host.State

/-!
# Aborts and traces from a guest

Guests report a failed assertion with a message and a place, and trace values with a message.
Either string may itself be damaged; its text then says so, and a null pointer is the empty text.
-/

namespace SandboxPool
namespace Diagnostics

/-- The string at a guest pointer, or the reason why there is none. -/
def readable (layout : StringLayout) (memory : Memory) (pointer : Int32) : String :=
  if pointer = 0 then ""
  else match layout.decode memory pointer with
    | .ok s => s
    | .error e => "<unreadable string at " ++ toString pointer ++ ": " ++ e.message ++ ">"

/-- Ends a call with the guest's own words. -/
def abort (layout : StringLayout) (memory : Memory) (args : List Value) (h : HostState) :
    HostReply × HostState :=
  let facts : Outcome (String × String × Int32 × Int32) := do
    let message := readable layout memory (← i32Arg args 0 "msg")
    let file := readable layout memory (← i32Arg args 1 "file")
    return (message, file, ← i32Arg args 2 "line", ← i32Arg args 3 "col")
  match facts with
  | .error e => (.failed e, h)
  | .ok (message, file, line, column) =>
    let event : Log.Event := ⟨.error, .env, "Guest aborted",
      [("slot", toString h.slot), ("message", message), ("file", file),
        ("line", toString line), ("column", toString column)]⟩
    let place := message ++ " at " ++ file ++ ":" ++ toString line ++ ":" ++ toString column
    (.failed (Cause.callFailed "env.abort" place), h.log event)

/-- The most values a trace takes. -/
def traceLimit : Nat := 5

/-- Logs a message with the first values after it. -/
def trace (layout : StringLayout) (memory : Memory) (args : List Value) (h : HostState) :
    HostReply × HostState :=
  let facts : Outcome (String × List UInt64) := do
    let message := readable layout memory (← i32Arg args 0 "msg")
    let count := min (← i32Arg args 1 "n").toNatClampNeg traceLimit
    let values ← (List.range count).mapM fun i => f64Arg args (2 + i) "a"
    return (message, values)
  match facts with
  | .error e => (.failed e, h)
  | .ok (message, values) =>
    let event : Log.Event := ⟨.info, .env, "Guest trace",
      [("slot", toString h.slot), ("message", message),
        ("values", Text.brackets (values.map Value.realDiagnostic))]⟩
    (.done (.ok []), h.log event)

/-- A number that differs from run to run: the bits of the moment as a float. -/
def seed (h : HostState) : HostReply × HostState :=
  let nanoseconds := (h.services.clock.wall * 1000000).toNat
  (.done (.ok [.f64 (Float.ofNat nanoseconds).toBits]), h)

end Diagnostics
end SandboxPool
