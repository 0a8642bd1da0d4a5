import SandboxPool.Host.LockClient
import SandboxPool.Host.TokenStore
import SandboxPool.Handle.Table
import SandboxPool.Memory.Strings
import SandboxPool.Value

/-!
# What host functions work on

A host function sees the context it was bound to: the slot, the handle table, whether the
caller's scope has fired. Behind the context stand the services all contexts share, token stores
and lock clients by name, and two records: the log, and the notes in which guests and
capabilities leave a trace of what they did.
-/

namespace SandboxPool

/-- What a guest instruction came to. -/
inductive NoteResult where
  | values (vs : List Value)
  | bytes (data : List UInt8)
  | failure (e : Failure)
  deriving Repr, DecidableEq

/-- A trace of something that guests or capabilities did. -/
inductive Note where
  /-- A guest carried out an instruction. -/
  | instruction (name : String) (result : NoteResult)
  /-- A custom capability was created for a slot. -/
  | created (group : String) (slot : Nat)
  /-- A custom capability looked at its context before the guest was there. -/
  | probed (size : Outcome Nat) (context : String)
  /-- A custom capability defined its functions. -/
  | exported (group : String)
  /-- A custom capability bound guest exports. -/
  | imported (group : String)
  /-- A lock went to a client that keeps none. -/
  | lockSent (lock : Lock)

/-- The services all contexts share. -/
structure Services where
  stores : List (String × TokenStore)
  clients : List (String × LockClient)
  clock : Clock
  deriving Inhabited

namespace Services

/-- The entry of a list under a name. -/
def find? {α : Type} (name : String) (entries : List (String × α)) : Option α :=
  entries.lookup name

/-- The list with an entry replaced. -/
def replace {α : Type} (name : String) (a : α) (entries : List (String × α)) :
    List (String × α) :=
  entries.map fun e => if e.1 = name then (name, a) else e

/-- The token store of a name. A store nobody set up is out of order. -/
def store (s : Services) (name : String) : TokenStore :=
  (find? name s.stores).getD (.broken (.query "store" "no such store"))

/-- The lock client of a name. A client nobody set up reaches no server. -/
def client (s : Services) (name : String) : LockClient :=
  (find? name s.clients).getD (.refusing (.unavailable "no such client"))

/-- The services with a store replaced. -/
def setStore (s : Services) (name : String) (store : TokenStore) : Services :=
  { s with stores := replace name store s.stores }

/-- The services with a client replaced. -/
def setClient (s : Services) (name : String) (client : LockClient) : Services :=
  { s with clients := replace name client s.clients }

end Services

/-- The log and the notes, the newest entry first. -/
structure Journal where
  events : List Log.Event
  notes : List Note
  deriving Inhabited

namespace Journal

/-- Nothing recorded. -/
def empty : Journal := ⟨[], []⟩

/-- Logs an event. -/
def log (j : Journal) (e : Log.Event) : Journal := { j with events := e :: j.events }

/-- Logs events in order. -/
def logAll (j : Journal) (es : List Log.Event) : Journal := es.foldl log j

/-- Takes a note. -/
def note (j : Journal) (n : Note) : Journal := { j with notes := n :: j.notes }

end Journal

/-- The context a host function runs in, and what stands behind it. -/
structure HostState where
  slot : Nat
  handles : HandleTable
  cancelled : Bool
  services : Services
  journal : Journal
  deriving Inhabited

namespace HostState

/-- Logs an event. -/
def log (h : HostState) (e : Log.Event) : HostState := { h with journal := h.journal.log e }

/-- Logs events in order. -/
def logAll (h : HostState) (es : List Log.Event) : HostState :=
  { h with journal := h.journal.logAll es }

/-- Takes a note. -/
def note (h : HostState) (n : Note) : HostState := { h with journal := h.journal.note n }

end HostState

/-- What a host function comes to: a result, a panic, or a wait that only the caller's scope can
end. -/
inductive HostReply where
  | done (result : Outcome (List Value))
  | panicked (message : String)
  | waiting (gate : String)

/-- A reply that is a failure. -/
def HostReply.failed (e : Failure) : HostReply := .done (.error e)

end SandboxPool
