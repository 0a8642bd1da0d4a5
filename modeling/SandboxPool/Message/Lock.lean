import SandboxPool.Message.Basic
import SandboxPool.Text.Blank

/-!
# Locks

A lock keeps a user, role, node or other target out until it expires. Guests send locks to the
host, which fills in what they left empty and refuses a lock of another kind, without a name or
without a target. `Lock.complete` does both; what it filled in before it found a fault stays
filled in.
-/

namespace SandboxPool

open Wire

/-- Facts every resource has. -/
structure Metadata where
  name : String
  «namespace» : String
  description : String
  labels : TextMap
  deriving Repr, DecidableEq, Inhabited

/-- No facts. -/
def Metadata.empty : Metadata := ⟨"", "", "", .empty⟩

/-- The fields of the metadata. -/
def Metadata.codec : Codec Metadata where
  name := "Metadata"
  default := .empty
  fields := [
    .text 1 "name" Metadata.name (fun m s => { m with name := s }),
    .text 2 "namespace" Metadata.namespace (fun m s => { m with «namespace» := s }),
    .text 3 "description" Metadata.description (fun m s => { m with description := s }),
    .textMap 4 "labels" Metadata.labels (fun m t => { m with labels := t })]

/-- Whom a lock keeps out; a field that is set has to match. -/
structure LockTarget where
  user : String
  role : String
  login : String
  node : String
  mfaDevice : String
  windowsDesktop : String
  accessRequest : String
  deriving Repr, DecidableEq, Inhabited

namespace LockTarget

/-- The fields of a target. -/
def codec : Codec LockTarget where
  name := "LockTarget"
  default := ⟨"", "", "", "", "", "", ""⟩
  fields := [
    .text 1 "user" user (fun m s => { m with user := s }),
    .text 2 "role" role (fun m s => { m with role := s }),
    .text 3 "login" login (fun m s => { m with login := s }),
    .text 4 "node" node (fun m s => { m with node := s }),
    .text 5 "mfa_device" mfaDevice (fun m s => { m with mfaDevice := s }),
    .text 6 "windows_desktop" windowsDesktop (fun m s => { m with windowsDesktop := s }),
    .text 7 "access_request" accessRequest (fun m s => { m with accessRequest := s })]

/-- The fields of a target as texts. -/
def toList (t : LockTarget) : List String :=
  [t.user, t.role, t.login, t.node, t.mfaDevice, t.windowsDesktop, t.accessRequest]

/-- True if no field is set. -/
def isEmpty (t : LockTarget) : Bool := t.toList.all String.isEmpty

end LockTarget

/-- What a lock does; an expiry of 0 is none. -/
structure LockSpec where
  target : Option LockTarget
  message : String
  expiresUnix : Int64
  deriving Repr, DecidableEq, Inhabited

/-- The fields of what a lock does. -/
def LockSpec.codec : Codec LockSpec where
  name := "LockSpec"
  default := ⟨none, "", 0⟩
  fields := [
    .message 1 "target" LockTarget.codec LockSpec.target (fun m t => { m with target := t }),
    .text 2 "message" LockSpec.message (fun m s => { m with message := s }),
    .int64 3 "expires_unix" LockSpec.expiresUnix (fun m n => { m with expiresUnix := n })]

/-- A lock. -/
structure Lock where
  kind : String
  subKind : String
  version : String
  metadata : Option Metadata
  spec : Option LockSpec
  deriving Repr, DecidableEq, Inhabited

instance : Message Lock where
  typeName := "types.LockV2"
  codec :=
    { name := "Lock"
      default := ⟨"", "", "", none, none⟩
      fields := [
        .text 1 "kind" Lock.kind (fun m s => { m with kind := s }),
        .text 2 "sub_kind" Lock.subKind (fun m s => { m with subKind := s }),
        .text 3 "version" Lock.version (fun m s => { m with version := s }),
        .message 4 "metadata" Metadata.codec Lock.metadata (fun m d => { m with metadata := d }),
        .message 5 "spec" LockSpec.codec Lock.spec (fun m s => { m with spec := s })] }

namespace Lock

/-- The only kind a lock may have. -/
def properKind : String := "lock"

/-- The version a lock gets. -/
def latestVersion : String := "v2"

/-- The namespace a lock gets. -/
def defaultNamespace : String := "default"

/-- The name of a lock; empty without metadata. -/
def name (l : Lock) : String := (l.metadata.map Metadata.name).getD ""

/-- The target of a lock. -/
def target? (l : Lock) : Option LockTarget := l.spec.bind LockSpec.target

/-- A text, or `default` in place of the empty one. -/
def orDefault (s default : String) : String := if s.isEmpty then default else s

/-- The lock with its kind, then its version and metadata, then its namespace filled in, and the
first rule that it breaks. -/
def complete (l : Lock) : Outcome Unit × Lock :=
  if ¬ l.kind.isEmpty ∧ l.kind ≠ properKind then
    (refuse (.invalid ("expected kind '" ++ properKind ++ "', got '" ++ l.kind ++ "'")), l)
  else
    let m := l.metadata.getD .empty
    let l := { l with
      kind := properKind, version := orDefault l.version latestVersion, metadata := some m }
    if Text.isBlank m.name then (refuse (.invalid "lock name must be set"), l)
    else
      let m := { m with «namespace» := orDefault m.namespace defaultNamespace }
      let l := { l with metadata := some m }
      if l.target?.all LockTarget.isEmpty then
        (refuse (.invalid "at least one lock target field must be set"), l)
      else (.ok (), l)

end Lock
end SandboxPool
