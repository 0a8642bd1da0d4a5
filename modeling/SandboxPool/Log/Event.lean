import SandboxPool.Text.Quoted

/-!
# Log events

What the library reports as it works. An event has a level, the module it comes from, a message
and named fields whose values are rendered when the event is made. Whether anyone sees it is
decided later, by a filter.
-/

namespace SandboxPool.Log

/-- How important an event is, the most important first. -/
inductive Level where
  | error | warn | info | debug | trace
  deriving Repr, DecidableEq, Inhabited

namespace Level

/-- All levels. -/
def all : List Level := [error, warn, info, debug, trace]

/-- Greater for more detail. -/
def verbosity : Level → Nat
  | error => 1
  | warn => 2
  | info => 3
  | debug => 4
  | trace => 5

/-- A level in configuration. -/
def name : Level → String
  | error => "error"
  | warn => "warn"
  | info => "info"
  | debug => "debug"
  | trace => "trace"

/-- A level in the log. -/
def label : Level → String
  | error => "ERROR"
  | warn => "WARN"
  | info => "INFO"
  | debug => "DEBUG"
  | trace => "TRACE"

/-- The level of that name, lower case. -/
def ofName? (s : String) : Option Level := all.find? fun l => l.name = s

end Level

/-- The parts of the library that report events. -/
inductive Origin where
  | pool | context | interop | handlers | env | store | lockApi | lockClient | database
  | configTypes | configFile | scriptEngine | wasmEngine | program
  deriving Repr, DecidableEq, Inhabited

/-- The path that stands for a part in the log and in filters. -/
def Origin.path : Origin → String
  | pool => "acton_plugins::pool::pool"
  | context => "acton_plugins::pool::context"
  | interop => "acton_plugins::interop::bridge"
  | handlers => "acton_plugins::capability::handlers"
  | env => "acton_plugins::capability::env"
  | store => "acton_plugins::capability::store"
  | lockApi => "acton_plugins::capability::lock_api"
  | lockClient => "acton_plugins::api::client"
  | database => "acton_plugins::tokens::database"
  | configTypes => "acton_plugins::config::types"
  | configFile => "acton_plugins::config::file"
  | scriptEngine => "acton_plugins::runtime::stub"
  | wasmEngine => "acton_plugins::runtime::wasmtime"
  | program => "plugin_host"

/-- An event; its fields are names and rendered values, in order. -/
structure Event where
  level : Level
  origin : Origin
  message : String
  fields : List (String × String)
  deriving Repr, DecidableEq, Inhabited

end SandboxPool.Log
