import SandboxPool.Config.Settings

/-!
# Where settings come from

Settings are read from a file that is named, or from the first of two usual places: one in the
working directory, and one in the user's configuration directory. Where neither is there, the
defaults hold.
-/

namespace SandboxPool

/-- The directories a user's environment names. -/
structure UserDirectories where
  /-- The home directory. -/
  home : Option String
  /-- The directory for configuration; it counts only if its path is absolute. -/
  configuration : Option String
  deriving Repr, DecidableEq

/-- Why no settings could be read from a file. -/
inductive ConfigFileProblem where
  | unreadable (path : String) (fault : FileFault)
  | unusable (path : String) (problem : ConfigProblem)
  deriving Repr, DecidableEq

namespace ConfigFileProblem

/-- A problem as a failure. The fault of a file stands behind it. -/
def toFailure : ConfigFileProblem → Failure
  | unreadable path fault =>
    ⟨.configuration "config_file" ("failed to read '" ++ path ++ "': " ++ fault.message),
      [fault.message]⟩
  | unusable path problem =>
    ⟨.configuration "config_file"
      ("failed to parse '" ++ path ++ "': " ++ problem.toFailure.message), []⟩

end ConfigFileProblem

namespace HostConfig

/-- A path with a part after it. -/
def join (path part : String) : String :=
  if path.isEmpty || path.toList.getLast? = some '/' then path ++ part else path ++ "/" ++ part

/-- The directory of a user's configuration of this program. -/
def userDirectory? (u : UserDirectories) : Option String :=
  let absolute := u.configuration.filter fun p => p.toList.head? = some '/'
  let base := absolute <|> u.home.map fun h => join h ".config"
  base.map fun p => join p "plugin-host"

/-- The usual places, in the order in which they are looked at. -/
def searchPaths (u : UserDirectories) : List String :=
  "plugin-host.toml" :: ((userDirectory? u).map fun d => join d "config.toml").toList

/-- The settings in a file. -/
def ofFile (fs : Files) (path : String) : Except ConfigFileProblem HostConfig :=
  match fs.readText path with
  | .error fault => .error (.unreadable path fault)
  | .ok text =>
    match ofText text with
    | .error p => .error (.unusable path p)
    | .ok c => .ok c

/-- The settings in the first of the usual places where there are some. -/
def load (fs : Files) (u : UserDirectories) (j : Journal) :
    Except ConfigFileProblem HostConfig × Journal :=
  match (searchPaths u).find? fs.exists? with
  | none => (.ok standard, j)
  | some path =>
    (ofFile fs path, j.log ⟨.debug, .configFile, "Loading configuration", [("path", path)]⟩)

end HostConfig
end SandboxPool
