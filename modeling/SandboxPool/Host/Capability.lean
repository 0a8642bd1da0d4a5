import SandboxPool.Host.Function

/-!
# Capabilities

What a pool offers its guests is a list of capabilities. Each of them defines host functions in a
group of its own before the guest is instantiated, and may bind guest exports afterwards. Custom
capabilities are an embedder's own: they may fail in any phase, at some slots and not at others, and
they leave notes.
-/

namespace SandboxPool

/-- What a hook of a custom capability reports: what stands beside a slot that is listed, and the
same for all others. -/
structure Hook where
  usual : Option Failure
  listed : List (Nat × Option Failure)
  deriving Repr, DecidableEq

namespace Hook

/-- A hook that reports the same for every slot. -/
def always (e : Option Failure) : Hook := ⟨e, []⟩

instance : Coe (Option Failure) Hook := ⟨always⟩

/-- What it reports for a slot. -/
def report (k : Hook) (slot : Nat) : Option Failure := (k.listed.lookup slot).getD k.usual

end Hook

/-- A capability of an embedder. -/
structure CustomCapability where
  group : String
  /-- Functions with their own group, name and definition. -/
  functions : List (String × String × HostFunction)
  /-- Looks at the context before the guest is there. -/
  probe : Bool
  failCreate : Hook
  failExport : Hook
  /-- Guest exports that have to be there. -/
  bind : List String
  failBind : Hook
  deriving Repr, DecidableEq

/-- Something a pool offers its guests. -/
inductive Capability where
  | env (layout : StringLayout)
  | tokenStore (store : String) (layout : StringLayout)
  | interop
  | lockApi (client : String)
  | handlers
  | custom (c : CustomCapability)
  deriving Repr, DecidableEq

namespace Capability

/-- The guest export that handles events. -/
def handleEventExport : String := "handleEvent"

/-- The guest export that rewrites headers; guests may do without. -/
def rewriteHeadersExport : String := "rewriteHeaders"

/-- The group a capability stands under. -/
def group : Capability → String
  | env _ => "env"
  | tokenStore .. => "store"
  | interop => "interop"
  | lockApi _ => "api"
  | handlers => "handlers"
  | custom c => c.group

/-- The functions a built-in capability defines in its group, in order. -/
def builtIns : Capability → List (String × HostFunction)
  | env layout => [
      ("abort", ⟨⟨[.i32, .i32, .i32, .i32], []⟩, .abort layout⟩),
      ("trace", ⟨⟨[.i32, .i32, .f64, .f64, .f64, .f64, .f64], []⟩, .trace layout⟩),
      ("seed", ⟨⟨[], [.f64]⟩, .seed⟩)]
  | tokenStore store layout => [
      ("takeToken", ⟨⟨[.i32, .i32], [.i32]⟩, .takeToken store layout⟩),
      ("releaseTokens", ⟨⟨[.i32], []⟩, .releaseTokens store layout⟩)]
  | interop => [
      ("registerBuffer", ⟨⟨[.i32, .i32], [.i32]⟩, .registerBuffer⟩),
      ("bufferSize", ⟨⟨[.i32], [.i32]⟩, .bufferSize⟩),
      ("readBuffer", ⟨⟨[.i32, .i32], []⟩, .readBuffer⟩),
      ("discardBuffer", ⟨⟨[.i32], []⟩, .discardBuffer⟩)]
  | lockApi client => [("upsertLock", ⟨⟨[.i32], []⟩, .upsertLock client⟩)]
  | handlers => []
  | custom _ => []

/-- Every function a capability defines, with its group, in order. -/
def functions : Capability → List (String × String × HostFunction)
  | custom c => c.functions
  | c => c.builtIns.map fun f => (c.group, f)

/-- Defines functions one after another up to the first whose pair is taken. -/
def defineAll (ns : Imports) : List (String × String × HostFunction) → Outcome Imports
  | [] => .ok ns
  | (group, name, f) :: rest =>
    match ns.define group name f with
    | .ok ns => defineAll ns rest
    | .error e => .error e

/-- A context in diagnostics. -/
def contextDiagnostic (slot : Nat) (instantiated : Bool) : String :=
  Text.openRecord "ContextHandle"
    [("slot", toString slot), ("instantiated", Text.ofBool instantiated)]

/-- A capability in diagnostics; `store` and `client` show what it holds. -/
def diagnostic (store client : String → String) : Capability → String
  | env layout => Text.record "Env" [("decoder", layout.diagnostic)]
  | tokenStore s layout =>
    Text.record "TokenStore" [("store", store s), ("decoder", layout.diagnostic)]
  | interop => "Interop"
  | lockApi c => Text.record "LockApi" [("client", client c)]
  | handlers => "Handlers"
  | custom _ => "Custom(Custom)"

/-- A capability bound to a context in diagnostics. -/
def boundDiagnostic (store client : String → String) (slot : Nat) : Capability → String
  | env layout =>
    Text.record "EnvTrait"
      [("ctx", contextDiagnostic slot true), ("decoder", layout.diagnostic)]
  | tokenStore s layout =>
    Text.record "StoreTrait"
      [("ctx", contextDiagnostic slot true), ("store", store s), ("decoder", layout.diagnostic)]
  | interop => Text.record "InteropTrait" [("ctx", contextDiagnostic slot true)]
  | lockApi c =>
    Text.record "LockApiTrait" [("ctx", contextDiagnostic slot true), ("client", client c)]
  | handlers => "HandlersTrait"
  | custom _ => "CustomTrait"

end Capability
end SandboxPool
