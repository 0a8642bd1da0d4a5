import SandboxPool.Program.Arguments
import SandboxPool.Program.Callers
import SandboxPool.Config.Locating

/-!
# A run of the program

The program reads its settings, opens the token store, builds a pool and calls one export from as
many callers as the pool has contexts. `Program.run` does all this on the files and variables it
is given and tells the exit code, the lines of the log, the words for an error, and the files
afterwards.
-/

namespace SandboxPool

/-- The variables the program looks at. -/
structure Environment where
  /-- The configuration file, unless an argument names one. -/
  config : Option String
  /-- Which events are shown, in place of the configured level. -/
  logFilter : Option String
  directories : UserDirectories
  deriving Repr, DecidableEq

/-- What a run comes to. -/
structure RunResult where
  exitCode : Nat
  lines : List String
  error : String
  files : Files

/-- A failure of the program, in its own words and with the causes behind it. -/
structure ExitError where
  message : String
  causes : List String
  deriving Repr, DecidableEq

namespace ExitError

/-- A failure without words of the program. -/
def ofFailure (e : Failure) : ExitError := ⟨e.message, e.behind⟩

/-- A failure with words of the program in front. -/
def inContext (words : String) (e : Failure) : ExitError := ⟨words, e.chain⟩

/-- A text whose further lines are indented. -/
def indented (indent : String) (s : String) : String :=
  Text.separated ("\n" ++ indent) (s.splitOn "\n")

/-- The causes of a failure, numbered if there are several. -/
def causeLines : List String → List String
  | [] => []
  | [cause] => ["", "Caused by:", "    " ++ indented "    " cause]
  | causes =>
    "" :: "Caused by:" :: causes.mapIdx fun i cause =>
      let number := toString i
      let gap := String.ofList (List.replicate (5 - number.length) ' ')
      gap ++ number ++ ": " ++ indented "       " cause

/-- A failure as the program prints it. -/
def render (e : ExitError) : String :=
  Text.separated "\n" (("Error: " ++ e.message) :: causeLines e.causes)

end ExitError

namespace Program

/-- Where settings may stand. -/
def configPaths (i : Invocation) (env : Environment) : List String :=
  match i.config with
  | some path => [path]
  | none => HostConfig.searchPaths env.directories

/-- The files that settings name. -/
def namedPaths (c : HostConfig) : List String :=
  c.pool.module.toList ++ match c.tokenStore.backend with
    | .database => [c.tokenStore.path]
    | .memory => []

/-- The settings the user names, or those in the usual places. -/
def configured (i : Invocation) (env : Environment) (fs : Files) :
    Except ConfigFileProblem HostConfig :=
  match i.config with
  | some path => HostConfig.ofFile fs path
  | none => (HostConfig.load fs env.directories .empty).1

/-- The settings of a run: the configured ones, overridden by the arguments. -/
def settings (i : Invocation) (env : Environment) (fs : Files) :
    Except ExitError HostConfig := do
  let config ← (configured i env fs).mapError fun p => .ofFailure p.toFailure
  let pool := { config.pool with
    module := i.module <|> config.pool.module
    concurrency := i.concurrency.getD config.pool.concurrency }
  let logging := { config.logging with level := i.logLevel.getD config.logging.level }
  let config := { config with pool, logging }
  config.validate.mapError ExitError.ofFailure
  return config

/-- The bytes of the guest module. -/
def moduleBytes (c : HostConfig) (fs : Files) : Except ExitError (List UInt8) :=
  match c.pool.module with
  | none => .error ⟨"no guest module given; pass --module or set pool.module", []⟩
  | some path =>
    (fs.read path).mapError fun f => ⟨"failed to read module " ++ path, [f.message]⟩

/-- The name of the token store among the services. -/
def storeName : String := "store"

/-- The name of the lock client among the services. -/
def clientName : String := "client"

/-- What the pool is made from. -/
def poolOptions (c : HostConfig) (module : List UInt8) : PoolOptions :=
  { PoolOptions.ofModule module with
    concurrency := c.pool.concurrency
    timeout := c.pool.timeout
    capabilities := [.env c.stringLayout, .tokenStore storeName c.stringLayout, .interop,
      .lockApi clientName] }

/-- The event after all callers have been joined. -/
def completeEvent (c : Counters) : Log.Event :=
  ⟨.info, .program, "Run complete",
    [("completed", toString c.completed), ("timeouts", toString c.timeouts),
      ("cancellations", toString c.cancellations), ("faults", toString c.faults)]⟩

/-- Builds the pool, lets all callers run and closes the pool. -/
def runCallers (c : HostConfig) (function : String) (module : List UInt8) (w : World) :
    Except ExitError Unit × World :=
  match w.openPool (poolOptions c module) true with
  | (.error e, w) => (.error (.ofFailure e), w)
  | (.ok place, w) =>
    let (callers, w) := World.startCallers place function (List.range c.pool.concurrency) w
    let (joined, w) := World.joinCallers place callers .nobody w
    let counters := (w.pools[place]?.map Pool.counters).getD .zero
    let w := (w.log (completeEvent counters)).close place
    match joined.failure with
    | none => (.ok (), w)
    | some e => (.error (.inContext ("export '" ++ function ++ "' failed") e), w)

/-- Opens the token store and runs the callers. -/
def runPool (c : HostConfig) (function : String) (clock : Clock) (fs : Files) (j : Journal) :
    Except ExitError Unit × Journal × Files :=
  match moduleBytes c fs with
  | .error e => (.error e, j, fs)
  | .ok module =>
    match c.tokenStore.openStore fs j with
    | (.error f, j) => (.error (.ofFailure f.toFailure), j, fs)
    | (.ok (opened, fs), j) =>
      let services : Services := ⟨[(storeName, opened.store)], [(clientName, .dryRun [])], clock⟩
      let w := { World.ofEngine (.wasm c.pool.memoryLimit) services with journal := j }
      let (result, w) := runCallers c function module w
      let closed := { opened with store := w.services.store storeName }
      (result, w.journal, closed.close fs)

/-- The exit code of a failure. -/
def failureCode : Nat := 1

/-- Runs the program. -/
def run (arguments : List String) (env : Environment) (clock : Clock) (fs : Files) : RunResult :=
  match Invocation.ofArguments arguments env.config with
  | .error e => ⟨e.exitCode, [], e.message, fs⟩
  | .ok i =>
    match settings i env fs with
    | .error e => ⟨failureCode, [], e.render, fs⟩
    | .ok c =>
      let filter := match env.logFilter with
        | some text => Log.Filter.ofText c.logging.level text
        | none => Log.Filter.ofLevel c.logging.level
      let function := i.exportName.getD Invocation.defaultExport
      let (result, j, fs) := runPool c function clock fs .empty
      let lines := c.logging.lines filter j.events.reverse
      match result with
      | .ok () => ⟨0, lines, "", fs⟩
      | .error e => ⟨failureCode, lines, e.render, fs⟩

end Program
end SandboxPool
