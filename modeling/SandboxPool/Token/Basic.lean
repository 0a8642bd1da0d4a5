import SandboxPool.Failure
import SandboxPool.Text.Blank

/-!
# Token scopes

Guests count tokens by scope: each take adds one to the scope's count and keeps the scope alive
for some seconds. A scope's key must not be blank and its time to live must be positive; both are
checked before a store is asked. `TtlPolicy` says whether a later take moves the deadline.
-/

namespace SandboxPool

/-- Why a token store refused. -/
inductive StoreFault where
  | databaseOpen (path message : String)
  | schema (message : String)
  | query (operation message : String)
  | badScope (reason : String)
  | badTtl (seconds : Int64)
  deriving Repr, DecidableEq, Inhabited

namespace StoreFault

/-- The words for a fault. -/
def message : StoreFault → String
  | databaseOpen path message =>
    "failed to open token database at '" ++ path ++ "': " ++ message ++
      "; check file permissions and path"
  | schema message =>
    "failed to initialize token schema: " ++ message ++ "; database may be corrupted"
  | query operation message => operation ++ " query failed: " ++ message
  | badScope reason => "invalid token scope: " ++ reason
  | badTtl seconds => "invalid token TTL " ++ toString seconds ++ "s; TTL must be positive"

/-- The name of a fault in diagnostics. -/
def name : StoreFault → String
  | databaseOpen .. => "DatabaseOpen"
  | schema _ => "SchemaInit"
  | query .. => "QueryFailed"
  | badScope _ => "InvalidScope"
  | badTtl _ => "InvalidTtl"

/-- The fault of a name with its facts, which are looked up by their names. -/
def ofFacts (name : String) (text : String → String) (number : String → Int) : StoreFault :=
  match name with
  | "DatabaseOpen" => databaseOpen (text "path") (text "message")
  | "SchemaInit" => schema (text "message")
  | "QueryFailed" => query (text "operation") (text "message")
  | "InvalidScope" => badScope (text "reason")
  | _ => badTtl (Int64.ofInt (number "seconds"))

/-- True if the caller's argument is at fault, not the store. -/
def isBadArgument : StoreFault → Bool
  | badScope _ | badTtl _ => true
  | _ => false

/-- A fault as the failure of a call; the fault stands behind it. -/
def toFailure (f : StoreFault) : Failure :=
  let cause : Cause := match f with
    | badScope reason => .badArgument "scope" reason
    | badTtl _ => .badArgument "ttl" f.message
    | _ => .callFailed "store" f.message
  ⟨cause, [f.message]⟩

end StoreFault

/-- The key of a scope. -/
structure ScopeKey where
  text : String
  not_blank : Text.isBlank text = false
  deriving DecidableEq

instance : Repr ScopeKey := ⟨fun k n => reprPrec k.text n⟩

/-- The key of a text; a blank text is none. -/
def ScopeKey.parse (text : String) : Except StoreFault ScopeKey :=
  if h : Text.isBlank text = false then .ok ⟨text, h⟩
  else .error (.badScope "scope must not be blank")

/-- A time to live of whole seconds, which must be positive. -/
def ttlOfSeconds (seconds : Int64) : Except StoreFault Duration :=
  if 0 < seconds then .ok (.ofSeconds seconds.toNatClampNeg) else .error (.badTtl seconds)

/-- When a scope's deadline moves: on every take, or never after the first. -/
inductive TtlPolicy where
  | extendOnTake
  | fixedAtFirstTake
  deriving Repr, DecidableEq, Inhabited

namespace TtlPolicy

/-- A policy in configuration. -/
def name : TtlPolicy → String
  | extendOnTake => "extend_on_take"
  | fixedAtFirstTake => "fixed_at_first_take"

/-- A policy in diagnostics. -/
def diagnostic : TtlPolicy → String
  | extendOnTake => "ExtendOnTake"
  | fixedAtFirstTake => "FixedAtFirstTake"

end TtlPolicy
end SandboxPool
