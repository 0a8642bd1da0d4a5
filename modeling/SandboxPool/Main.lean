import SandboxPool.Program.Run
import Std.Time.DateTime.Timestamp

/-!
# The command line

Gathers the variables and the files a run looks at, runs the program on them, prints the log on
standard output and a failure on standard error, and writes back the databases.
-/

namespace SandboxPool.CommandLine

/-- Adds what the disk holds at a path. -/
def addEntry (fs : Files) (path : String) : IO Files := do
  match ← (IO.FS.readBinFile path).toBaseIO with
  | .ok data => return fs.write path (.ofBytes data.toList)
  | .error _ =>
    match ← (IO.FS.realPath path).toBaseIO with
    | .ok found => return if ← found.isDir then fs.makeDirectory path else fs
    | .error _ => return fs

/-- A place as an absolute path. -/
def absolutePath (p : Place) : String := "/" ++ Text.separated "/" p

/-- Adds what the disk holds at a path and at the place above it. -/
def addPath (fs : Files) (path : String) : IO Files := do
  let fs ← addEntry fs (absolutePath (fs.place path).dropLast)
  addEntry fs path

/-- The variables the program looks at. -/
def readEnvironment : IO Environment := do
  return {
    config := ← IO.getEnv "PLUGIN_HOST_CONFIG"
    logFilter := ← IO.getEnv "RUST_LOG"
    directories := ⟨← IO.getEnv "HOME", ← IO.getEnv "XDG_CONFIG_HOME"⟩ }

/-- What the clocks show now. -/
def readClock : IO Clock := do
  let now ← Std.Time.Timestamp.now
  return ⟨← IO.monoNanosNow, now.toMillisecondsSinceUnixEpoch.val⟩

/-- The files a run looks at. The settings say which these are, so theirs come first. -/
def readFiles (arguments : List String) (env : Environment) : IO Files := do
  let here ← IO.currentDir
  let fs := Files.empty ((Files.empty []).place here.toString)
  match Invocation.ofArguments arguments env.config with
  | .error _ => return fs
  | .ok i =>
    let fs ← (Program.configPaths i env).foldlM addPath fs
    match Program.settings i env fs with
    | .error _ => return fs
    | .ok c => (Program.namedPaths c).foldlM addPath fs

/-- Writes back the databases. -/
def writeDatabases (fs : Files) : IO Unit := do
  for (place, content) in fs.contents do
    if content matches .database _ then
      IO.FS.writeBinFile (absolutePath place) (.mk content.toBytes.toArray)

/-- Runs the program and tells the exit code. -/
def run (arguments : List String) : IO UInt32 := do
  let env ← readEnvironment
  let r := Program.run arguments env (← readClock) (← readFiles arguments env)
  writeDatabases r.files
  for line in r.lines do
    IO.println line
  unless r.error.isEmpty do
    IO.eprintln r.error
  return r.exitCode.toUInt32

end SandboxPool.CommandLine

/-- Runs the program with the arguments of the command line. -/
def main (arguments : List String) : IO UInt32 := SandboxPool.CommandLine.run arguments
