import SandboxPool.Message.Lock
import SandboxPool.Log.Event

/-!
# Clients that store locks

A lock from a guest goes to a client of the lock service. A dry run keeps the locks it is given;
other clients refuse every lock, or never answer. `LockClient.upsert` says what a client does
with a lock.
-/

namespace SandboxPool

/-- Why the lock service did not take a lock. -/
inductive ApiFault where
  | rejected (operation reason : String)
  | unavailable (reason : String)
  | cancelled
  deriving Repr, DecidableEq, Inhabited

namespace ApiFault

/-- The words for a fault. -/
def message : ApiFault → String
  | rejected operation reason => operation ++ " was rejected by the server: " ++ reason
  | unavailable reason => "API server unavailable: " ++ reason ++ "; check the connection"
  | cancelled => "API request was cancelled"

/-- The name of a fault in diagnostics. -/
def name : ApiFault → String
  | rejected .. => "Rejected"
  | unavailable _ => "Unavailable"
  | cancelled => "Cancelled"

/-- The fault of a name with its facts, which are looked up by their names. -/
def ofFacts (name : String) (text : String → String) : ApiFault :=
  match name with
  | "Rejected" => rejected (text "operation") (text "reason")
  | "Unavailable" => unavailable (text "reason")
  | _ => cancelled

/-- True if the server could not be reached. -/
def isUnavailable : ApiFault → Bool
  | unavailable _ => true
  | _ => false

/-- A fault as the failure of a call; the fault stands behind it. -/
def toFailure (f : ApiFault) : Failure :=
  let cause : Cause := match f with
    | cancelled => .cancelled
    | _ => .callFailed "api" f.message
  ⟨cause, [f.message]⟩

end ApiFault

/-- A client of the lock service. -/
inductive LockClient where
  /-- Keeps the locks it is given, the oldest first. -/
  | dryRun (upserts : List Lock)
  /-- Refuses every lock. -/
  | refusing (fault : ApiFault)
  /-- Never answers; those who wait for it can be met at the gate. -/
  | silent (gate : String)
  deriving Repr, Inhabited

/-- What a client answers: at once, or never. -/
inductive ClientAnswer where
  | done (result : Except ApiFault Unit)
  | never (gate : String)
  deriving Repr

namespace LockClient

/-- Gives a lock to a client. -/
def upsert (lock : Lock) : LockClient → ClientAnswer × LockClient
  | dryRun upserts => (.done (.ok ()), dryRun (upserts ++ [lock]))
  | refusing fault => (.done (.error fault), refusing fault)
  | silent gate => (.never gate, silent gate)

/-- The locks a dry run has kept. -/
def upserts : LockClient → List Lock
  | dryRun upserts => upserts
  | _ => []

/-- True of a dry run. -/
def isDryRun : LockClient → Bool
  | dryRun _ => true
  | _ => false

/-- The event of a lock that a dry run keeps. -/
def dryRunEvent (lock : Lock) : Log.Event where
  level := .info
  origin := .lockClient
  message := "Dry run: lock upserted"
  fields := [
    ("name", Text.quote lock.name),
    ("namespace", Text.quote ((lock.metadata.map Metadata.namespace).getD "")),
    ("user", Text.quote ((lock.target?.map LockTarget.user).getD "")),
    ("role", Text.quote ((lock.target?.map LockTarget.role).getD ""))]

end LockClient
end SandboxPool
