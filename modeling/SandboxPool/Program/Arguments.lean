import SandboxPool.Log.Event

/-!
# Arguments of the program

Options come with their value in the next argument or after an equals sign, short ones also with
the value right behind their letter. A value is looked at when the next option begins or the
arguments end, so that a name nobody knows is reported before the value in front of it. No option
may be given twice.
-/

namespace SandboxPool

/-- The options of the program. -/
inductive CommandOption where
  | config
  | module
  | exportName
  | concurrency
  | logLevel
  deriving Repr, DecidableEq

namespace CommandOption

/-- All options. -/
def all : List CommandOption := [config, module, exportName, concurrency, logLevel]

/-- The name of an option. -/
def name : CommandOption → String
  | config => "config"
  | module => "module"
  | exportName => "export"
  | concurrency => "concurrency"
  | logLevel => "log-level"

/-- The letter of an option. -/
def letter? : CommandOption → Option Char
  | config => some 'c'
  | module => some 'm'
  | exportName => some 'e'
  | concurrency | logLevel => none

/-- What stands for the value in messages. -/
def valueName : CommandOption → String
  | config | module => "FILE"
  | exportName => "EXPORT"
  | concurrency => "CONCURRENCY"
  | logLevel => "LOG_LEVEL"

/-- An option with its value in messages. -/
def shown (o : CommandOption) : String := "--" ++ o.name ++ " <" ++ o.valueName ++ ">"

/-- The option of a name. -/
def ofName? (s : String) : Option CommandOption := all.find? fun o => o.name = s

/-- The option of a letter. -/
def ofLetter? (c : Char) : Option CommandOption := all.find? fun o => o.letter? = some c

end CommandOption

/-- Why the arguments cannot be understood. -/
inductive UsageError where
  | unexpected (argument : String)
  | missingValue (option : CommandOption)
  | repeated (option : CommandOption)
  | badValue (option : CommandOption) (value reason : String)
  | excessValue (value option : String)
  /-- The user asks for help. -/
  | helpWanted
  deriving Repr, DecidableEq

namespace UsageError

/-- The words for an error. -/
def message : UsageError → String
  | unexpected argument => "error: unexpected argument '" ++ argument ++ "' found"
  | missingValue o => "error: a value is required for '" ++ o.shown ++ "' but none was supplied"
  | repeated o => "error: the argument '" ++ o.shown ++ "' cannot be used multiple times"
  | badValue o value reason =>
    "error: invalid value '" ++ value ++ "' for '" ++ o.shown ++ "': " ++ reason
  | excessValue value option =>
    "error: unexpected value '" ++ value ++ "' for '" ++ option ++
      "' found; no more were expected"
  | helpWanted => ""

/-- The exit code. -/
def exitCode : UsageError → Nat
  | helpWanted => 0
  | _ => 2

end UsageError

/-- What the user asks for. -/
structure Invocation where
  config : Option String
  module : Option String
  exportName : Option String
  concurrency : Option Nat
  logLevel : Option Log.Level
  deriving Repr, DecidableEq

namespace Invocation

/-- Nothing asked for. -/
def empty : Invocation := ⟨none, none, none, none, none⟩

/-- The export that is called unless another one is named. -/
def defaultExport : String := "test"

/-- The number of a text, below 2^64. -/
def parseCount (s : String) : Except String Nat :=
  let digits := match s.toList with
    | '+' :: rest => rest
    | cs => cs
  if s.isEmpty then .error "cannot parse integer from empty string"
  else if digits.isEmpty || !digits.all Char.isDigit then .error "invalid digit found in string"
  else
    let n := digits.foldl (fun n c => n * 10 + (c.toNat - '0'.toNat)) 0
    if n < 0x10000000000000000 then .ok n else .error "number too large to fit in target type"

/-- The level of a text, in any case. -/
def parseLevel (s : String) : Except String Log.Level :=
  let lower := String.ofList (s.toList.map Char.toLower)
  match Log.Level.ofName? lower with
  | some l => .ok l
  | none => .error ("unknown log level '" ++ lower ++ "'")

/-- True if an option has been given. -/
def has (i : Invocation) : CommandOption → Bool
  | .config => i.config.isSome
  | .module => i.module.isSome
  | .exportName => i.exportName.isSome
  | .concurrency => i.concurrency.isSome
  | .logLevel => i.logLevel.isSome

/-- Takes in an option with its value. -/
def set (i : Invocation) (o : CommandOption) (value : String) : Except UsageError Invocation :=
  match o with
  | .config =>
    if value.isEmpty then .error (.missingValue o) else .ok { i with config := some value }
  | .module =>
    if value.isEmpty then .error (.missingValue o) else .ok { i with module := some value }
  | .exportName => .ok { i with exportName := some value }
  | .concurrency =>
    match parseCount value with
    | .ok n => .ok { i with concurrency := some n }
    | .error reason => .error (.badValue o value reason)
  | .logLevel =>
    match parseLevel value with
    | .ok l => .ok { i with logLevel := some l }
    | .error reason => .error (.badValue o value reason)

/-- An option that has begun, and its value once that is there. -/
structure Pending where
  option : CommandOption
  value : Option String
  deriving Repr, DecidableEq

/-- Takes in an option that has begun. -/
def settle (i : Invocation) : Option Pending → Except UsageError Invocation
  | none => .ok i
  | some ⟨o, none⟩ => .error (.missingValue o)
  | some ⟨o, some value⟩ => if i.has o then .error (.repeated o) else i.set o value

/-- What an argument is by its looks. -/
inductive Look where
  /-- Two dashes alone: no options follow. -/
  | escape
  /-- A name after two dashes, perhaps with a value. -/
  | long (name : String) (value : Option String)
  /-- A letter after a dash, with what stands behind it. -/
  | short (letter : Char) (rest : List Char)
  | plain
  deriving Repr, DecidableEq

/-- What an argument is by its looks. -/
def lookOf (argument : String) : Look :=
  match argument.toList with
  | ['-', '-'] => .escape
  | '-' :: '-' :: rest =>
    let name := rest.takeWhile (· ≠ '=')
    let value := match rest.dropWhile (· ≠ '=') with
      | _ :: value => some (String.ofList value)
      | [] => none
    .long (String.ofList name) value
  | '-' :: c :: rest => .short c rest
  | _ => .plain

/-- The value that stands right behind a letter. -/
def attached? : List Char → Option String
  | [] => none
  | '=' :: value => some (String.ofList value)
  | value => some (String.ofList value)

/-- Begins an option, with its value if it has one already. -/
def start (i : Invocation) (pending : Option Pending) (o : CommandOption)
    (value : Option String) : Except UsageError (Invocation × Option Pending) := do
  let i ← i.settle pending
  match value with
  | none => return (i, some ⟨o, none⟩)
  | some _ => return (← i.settle (some ⟨o, value⟩), none)

/-- Reads arguments one after another. -/
def read : (arguments : List String) → Invocation → Option Pending → Except UsageError Invocation
  | [], i, pending => i.settle pending
  | argument :: rest, i, pending =>
    match lookOf argument with
    | .escape =>
      match rest with
      | [] => i.settle pending
      | next :: _ => .error (.unexpected next)
    | .long name value =>
      if name = "help" then
        match value with
        | none => (i.settle pending).bind fun _ => .error .helpWanted
        | some v => .error (.excessValue v "--help")
      else
        match CommandOption.ofName? name with
        | none => .error (.unexpected ("--" ++ name))
        | some o => (start i pending o value).bind fun r => read rest r.1 r.2
    | .short letter behind =>
      if letter = 'h' then (i.settle pending).bind fun _ => .error .helpWanted
      else
        match CommandOption.ofLetter? letter with
        | none => .error (.unexpected (String.ofList ['-', letter]))
        | some o => (start i pending o (attached? behind)).bind fun r => read rest r.1 r.2
    | .plain =>
      match pending with
      | some ⟨o, none⟩ => read rest i (some ⟨o, some argument⟩)
      | _ => .error (.unexpected argument)

/-- What the user asks for by arguments, and by the environment where the arguments name no
configuration. -/
def ofArguments (arguments : List String) (config : Option String) :
    Except UsageError Invocation := do
  let i ← read arguments empty none
  match i.config, config with
  | none, some path => i.set .config path
  | _, _ => return i

end Invocation
end SandboxPool
