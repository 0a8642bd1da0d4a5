import SandboxPool.Toml.Scalar

/-!
# Reading a document

A document is a sequence of lines: key-value pairs, which belong to the table of the last header,
and headers. `Document.read?` gives the entries of the whole, or nothing for a text that is no
document. A table that gets its header after tables inside it moves to where the header stands.
-/

namespace SandboxPool.Toml
namespace Document

open Reader

/-- Nesting of arrays and inline tables, and the parts of a key, stay below this number. -/
def depthLimit : Nat := 80

/-- Characters of a key without quotes. -/
def isKeyChar (c : Char) : Bool := c.isAlphanum || c = '-' || c = '_'

/-- One part of a key. -/
def keyPart : Reader String := do
  blanks
  let part ← Scalar.quoted <|> do
    let cs ← span isKeyChar
    if cs.isEmpty then failure else return String.ofList cs
  blanks
  return part

/-- A key: the tables on its way, and its own name. -/
def key : Reader (List String × String) := do
  let parts ← separated keyPart (char '.')
  match parts.getLast? with
  | some last => if parts.length < depthLimit then return (parts.dropLast, last) else failure
  | none => failure

/-- The elements of an array up to its bracket; a comma may follow the last one. -/
def elements (item : Reader Value) : (fuel : Nat) → Reader (List Value)
  | 0 => failure
  | fuel + 1 => do
    spacing
    if (← optionally (char ']')).isSome then return []
    let first ← item
    spacing
    if (← optionally (char ',')).isSome then return first :: (← elements item fuel)
    char ']'
    return [first]

/-- An array of items. -/
def array (item : Reader Value) : Reader Value := do
  char '['
  return .array (← elements item ((← get).length + 1))

/-- A pair of an inline table. -/
def pair (item : Reader Value) : Reader (List String × String × Value) := do
  let (path, name) ← key
  char '='
  blanks
  let v ← item
  blanks
  return (path, name, v)

/-- An inline table of items, all on one line. -/
def inlineTable (item : Reader Value) : Reader Value := do
  char '{'
  let pairs ← (do blanks; char '}'; return []) <|> do
    let pairs ← separated (pair item) (char ',')
    char '}'
    return pairs
  match pairs.foldlM (fun (es : Entries) p => es.assign? p.1 p.2.1 p.2.2) [] with
  | some es => return .table .inline es
  | none => failure

/-- A value with at most so many arrays and inline tables in one another. -/
def value : (depth : Nat) → Reader Value
  | 0 => Scalar.read
  | depth + 1 => do
    match ← peek? with
    | some '[' => array (value depth)
    | some '{' => inlineTable (value depth)
    | _ => Scalar.read

/-- What has been read: the document without the table of the last header, that header, and the
entries of its table. -/
structure State where
  root : Entries
  path : List String
  /-- True under a header in double brackets. -/
  several : Bool
  current : Entries

namespace State

/-- Nothing read. -/
def start : State := ⟨[], [], false, []⟩

/-- The name at the end of a path, and the path up to it. -/
def split? (path : List String) : Option (List String × String) :=
  path.getLast?.map fun last => (path.dropLast, last)

/-- Acts on the table that holds the one at a path. -/
def within (s : State) (path : List String) (act : String → Entries → Option Entries) :
    Option Entries := do
  let (parents, last) ← split? path
  s.root.descend false (fun _ es => act last es) parents .header

/-- The document with the table of the last header in its place. -/
def finish (s : State) : Option Entries :=
  if s.path.isEmpty then some s.current
  else if s.several then
    s.within s.path fun name es =>
      match es.lookup name with
      | some (.tables items) => some (es.replace name (.tables (items ++ [s.current])))
      | _ => none
  else s.within s.path fun name es => es.add? name (.table .header s.current)

/-- A header. A table that so far only stood on the way to others keeps what it has. -/
def header (s : State) (path : List String) : Option State := do
  let (parents, last) ← split? path
  -- the parents come into being here even if nothing follows
  let root ← (← s.finish).descend false (fun _ es => some es) parents .header
  match root.find? parents last with
  | none => return ⟨root, path, false, []⟩
  | some (.table .implicit es) =>
    let root ← root.descend false (fun _ es => some (es.filter fun e => e.1 ≠ last)) parents .header
    return ⟨root, path, false, es⟩
  | some _ => failure

/-- A header in double brackets. -/
def headerOfSeveral (s : State) (path : List String) : Option State := do
  let done : State := { s with root := ← s.finish }
  let root ← done.within path fun name es =>
    match es.lookup name with
    | none => some (es ++ [(name, .tables [])])
    | some (.tables _) => some es
    | some _ => none
  return ⟨root, path, true, []⟩

end State

/-- A line with a header. -/
def headerLine (s : State) : Reader State := do
  let several := (← optionally (word "[[")).isSome
  if !several then char '['
  let (path, name) ← key
  word (if several then "]]" else "]")
  trailing
  let next := if several then s.headerOfSeveral (path ++ [name]) else s.header (path ++ [name])
  match next with
  | some s => return s
  | none => failure

/-- A line with a pair. -/
def pairLine (s : State) : Reader State := do
  let (path, name) ← key
  char '='
  blanks
  let v ← value (depthLimit - 1)
  trailing
  match s.current.assign? path name v with
  | some current => return { s with current }
  | none => failure

/-- The lines of a document. -/
def lines : (fuel : Nat) → State → Reader State
  | 0, _ => failure
  | fuel + 1, s => do
    blanks
    match ← peek? with
    | none => return s
    | some '#' | some '\n' | some '\r' => trailing; lines fuel s
    | some '[' => do lines fuel (← headerLine s)
    | some _ => do lines fuel (← pairLine s)

/-- The entries of a document; a mark of the byte order may stand in front. -/
def read? (text : String) : Option Entries := do
  let cs := match text.toList with
    | c :: rest => if c = Char.ofNat 0xFEFF then rest else c :: rest
    | [] => []
  let (s, _) ← StateT.run (lines (cs.length + 1) .start) cs
  s.finish

end Document
end SandboxPool.Toml
