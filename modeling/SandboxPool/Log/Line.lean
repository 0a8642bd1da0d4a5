import SandboxPool.Log.Filter

/-!
# Lines of the log

How an event is written: its level, its path if wanted, its message, and its fields. A field
named `message` shows its value alone. On a terminal the level is coloured and field names are
set in italics.
-/

namespace SandboxPool.Log

/-- How events are logged. -/
structure Settings where
  level : Level
  ansi : Bool
  target : Bool
  deriving Repr, DecidableEq, Inhabited

/-- The settings used unless others are given. -/
def Settings.standard : Settings := ⟨.info, true, false⟩

/-- Switches a terminal's style. -/
def style (code : String) : String :=
  String.ofList [Char.ofNat 27, '['] ++ code ++ "m"

/-- A text in a terminal's style. -/
def styled (code s : String) : String := style code ++ s ++ style "0"

/-- The colour of a level. -/
def Level.colour : Level → String
  | .error => "31"
  | .warn => "33"
  | .info => "32"
  | .debug => "34"
  | .trace => "35"

/-- The level of a line. On a terminal it takes five columns. -/
def Settings.label (s : Settings) (l : Level) : String :=
  if s.ansi then
    styled l.colour (String.ofList (List.replicate (5 - l.label.length) ' ') ++ l.label)
  else l.label

/-- A field of a line. -/
def Settings.field (s : Settings) (f : String × String) : String :=
  if f.1 = "message" then f.2
  else if s.ansi then styled "3" f.1 ++ styled "2" "=" ++ f.2
  else f.1 ++ "=" ++ f.2

/-- The path of a line. -/
def Settings.path (s : Settings) (o : Origin) : List String :=
  if s.target then [if s.ansi then styled "2" o.path ++ styled "2" ":" else o.path ++ ":"] else []

/-- The line of an event, without the moment it was made. -/
def Settings.line (s : Settings) (e : Event) : String :=
  Text.separated " "
    ([s.label e.level] ++ s.path e.origin ++ [e.message] ++ e.fields.map s.field)

/-- The lines of the events that a filter shows. -/
def Settings.lines (s : Settings) (filter : Filter) (events : List Event) : List String :=
  (events.filter filter.shows).map s.line

end SandboxPool.Log
