import SandboxPool.Token.Stored

/-!
# Files

The files a host sees: configuration, guest modules, databases. A path is walked part by part
from the working directory, or from the root if it begins with a slash; every part before the
last must be a directory. Directories are those that files or directories stand in, and those
that are listed.
-/

namespace SandboxPool

/-- What a file holds: bytes, or the rows of a database. -/
inductive FileContent where
  | bytes (data : List UInt8)
  | database (rows : ScopeTable)
  deriving Repr, DecidableEq

namespace FileContent

/-- Bytes, or the rows that they stand for. -/
def ofBytes (data : List UInt8) : FileContent :=
  match ScopeTable.ofBytes? data with
  | some rows => .database rows
  | none => .bytes data

/-- The content as bytes. -/
def toBytes : FileContent → List UInt8
  | bytes data => data
  | database rows => rows.toBytes

end FileContent

/-- What stands at a place. -/
inductive FileEntry where
  | file (content : FileContent)
  | directory
  deriving Repr, DecidableEq

/-- Why a file cannot be read. -/
inductive FileFault where
  | missing
  | notDirectory
  | isDirectory
  | nameTooLong
  | zeroInName
  | notText
  deriving Repr, DecidableEq

/-- The words for a fault. -/
def FileFault.message : FileFault → String
  | missing => "No such file or directory (os error 2)"
  | notDirectory => "Not a directory (os error 20)"
  | isDirectory => "Is a directory (os error 21)"
  | nameTooLong => "File name too long (os error 36)"
  | zeroInName => "file name contained an unexpected NUL byte"
  | notText => "stream did not contain valid UTF-8"

/-- A place, by the names on the way from the root. -/
abbrev Place := List String

/-- All files, by their places, the working directory, and directories beside those that files
stand in. -/
structure Files where
  workingDirectory : Place
  contents : List (Place × FileContent)
  directories : List Place
  deriving Inhabited

namespace Files

/-- No files. -/
def empty (workingDirectory : Place) : Files := ⟨workingDirectory, [], []⟩

/-- The most bytes of a name. -/
def longestName : Nat := 255

/-- The most bytes of a path. -/
def longestPath : Nat := 4095

/-- What stands at a place. -/
def entry? (fs : Files) (p : Place) : Option FileEntry :=
  match fs.contents.lookup p with
  | some content => some (.file content)
  | none =>
    if (fs.workingDirectory :: fs.directories ++ fs.contents.map Prod.fst).any p.isPrefixOf then
      some .directory
    else none

/-- Walks on from a place. What stands at the place where the walk ends is not looked at. -/
def walk (fs : Files) : (names : List String) → Place → Except FileFault Place
  | [], p => .ok p
  | name :: names, p =>
    match fs.entry? p with
    | none => .error .missing
    | some (.file _) => .error .notDirectory
    | some .directory =>
      if name = "" ∨ name = "." then fs.walk names p
      else if name = ".." then fs.walk names p.dropLast
      else if longestName < Text.Utf8.size name then .error .nameTooLong
      else fs.walk names (p ++ [name])

/-- Where a path begins. -/
def start (fs : Files) (path : String) : Place :=
  if path.toList.head? = some '/' then [] else fs.workingDirectory

/-- The place a path leads to. -/
def resolve (fs : Files) (path : String) : Except FileFault Place :=
  if path.isEmpty then .error .missing
  else if path.toList.contains (Char.ofNat 0) then .error .zeroInName
  else if longestPath < Text.Utf8.size path then .error .nameTooLong
  else fs.walk (path.splitOn "/") (fs.start path)

/-- The entry a path leads to. -/
def lookup (fs : Files) (path : String) : Except FileFault FileEntry :=
  match fs.resolve path with
  | .error e => .error e
  | .ok p =>
    match fs.entry? p with
    | some e => .ok e
    | none => .error .missing

/-- True if something stands at the end of a path. -/
def exists? (fs : Files) (path : String) : Bool :=
  match fs.lookup path with
  | .ok _ => true
  | .error _ => false

/-- The bytes of a file. -/
def read (fs : Files) (path : String) : Except FileFault (List UInt8) :=
  match fs.lookup path with
  | .error e => .error e
  | .ok .directory => .error .isDirectory
  | .ok (.file content) => .ok content.toBytes

/-- The text of a file. -/
def readText (fs : Files) (path : String) : Except FileFault String :=
  match fs.read path with
  | .error e => .error e
  | .ok data =>
    match Text.Utf8.decode data with
    | .ok s => .ok s
    | .error _ => .error .notText

/-- Puts content at a place. -/
def put (fs : Files) (p : Place) (content : FileContent) : Files :=
  { fs with contents := fs.contents.filter (fun f => f.1 ≠ p) ++ [(p, content)] }

/-- The place a path names, whatever stands on the way. -/
def place (fs : Files) (path : String) : Place :=
  (path.splitOn "/").foldl (fun p name =>
    if name = "" ∨ name = "." then p else if name = ".." then p.dropLast else p ++ [name])
    (fs.start path)

/-- Puts content at the place of a path; its directories come into being. -/
def write (fs : Files) (path : String) (content : FileContent) : Files :=
  fs.put (fs.place path) content

/-- Makes a directory at the place of a path. -/
def makeDirectory (fs : Files) (path : String) : Files :=
  { fs with directories := fs.place path :: fs.directories }

/-- The names of the databases in the working directory that end with `ending`. -/
def databases (fs : Files) (ending : String) : List String :=
  fs.contents.filterMap fun f =>
    match f.1.getLast? with
    | some name =>
      if f.1.dropLast = fs.workingDirectory ∧ ending.toList.reverse.isPrefixOf name.toList.reverse
      then some name else none
    | none => none

end Files
end SandboxPool
