import SandboxPool.Text.Hex
import SandboxPool.Text.Utf8
import SandboxPool.Token.Database

/-!
# A table as bytes

A table is kept as text: a line that says what follows, then one line for each row with its
deadline, its count and its scope in hexadecimal. `ScopeTable.ofBytes?` reads what
`ScopeTable.toBytes` writes and nothing that begins otherwise.
-/

namespace SandboxPool

/-- A row as a line. -/
def ScopeRow.line (r : ScopeRow) : String :=
  Text.separated " "
    [toString r.expiresAt, toString r.count, Text.Hex.encode (Text.Utf8.encode r.scope)]

/-- The row of a line. -/
def ScopeRow.ofLine? (line : String) : Option ScopeRow :=
  match line.splitOn " " with
  | [expiresAt, count, scope] => do
    let scope ← (Text.Utf8.decode (Text.Hex.decode scope)).toOption
    return ⟨scope, ← count.toNat?, ← expiresAt.toInt?⟩
  | _ => none

namespace ScopeTable

/-- The first line. -/
def title : String := "token counts"

/-- A table as bytes. -/
def toBytes (t : ScopeTable) : List UInt8 :=
  Text.Utf8.encode (Text.separated "\n" (title :: t.map ScopeRow.line))

/-- The table that bytes stand for. -/
def ofBytes? (data : List UInt8) : Option ScopeTable :=
  match Text.Utf8.decode data with
  | .error _ => none
  | .ok text =>
    match text.splitOn "\n" with
    | first :: rows => if first = title then rows.mapM ScopeRow.ofLine? else none
    | [] => none

end ScopeTable
end SandboxPool
