import SandboxPool.Number.Format
import SandboxPool.Text.Quoted

/-!
# Values of a configuration document

A document is a table of keys and values; keys stand in the order in which they were first
written. Tables differ in how they came about, because that decides who may add to them:
a table with a header of its own is complete, one that only stands on the way to another may
still get a header, one made by dotted keys takes further dotted keys, and an inline table is
closed. `descend` walks down a path under these rules.
-/

namespace SandboxPool.Toml

/-- How a table came about. -/
inductive TableKind where
  /-- It has a header, or is the document itself. -/
  | header
  /-- It stands on the way to a table with a header. -/
  | implicit
  /-- It stands on the way of a dotted key. -/
  | dotted
  /-- It was written in braces. -/
  | inline
  deriving Repr, DecidableEq

/-- A value of a document. Of a date or time only its place is kept. -/
inductive Value where
  | text (s : String)
  | integer (n : Int)
  /-- A float, by the bits of a double. -/
  | real (bits : UInt64)
  | boolean (b : Bool)
  | moment
  | array (items : List Value)
  | table (kind : TableKind) (entries : List (String × Value))
  /-- The tables under a header in double brackets. -/
  | tables (items : List (List (String × Value)))

/-- The entries of a table. -/
abbrev Entries := List (String × Value)

namespace Value

/-- The name of a scalar's type. -/
def typeName : Value → String
  | text _ => "string"
  | integer _ => "integer"
  | real _ => "float"
  | boolean _ => "boolean"
  | moment => "datetime"
  | array _ | tables _ => "array"
  | table .. => "table"

/-- A value in the refusal of one who expected something else. -/
def described : Value → String
  | text s => "string " ++ Text.quote s
  | integer n => "integer `" ++ toString n ++ "`"
  | real bits =>
    "floating point `" ++ Number.positional.render Number.double bits.toNat ++ "`"
  | boolean b => "boolean `" ++ Text.ofBool b ++ "`"
  | array _ | tables _ => "sequence"
  | table .. | moment => "map"

end Value

namespace Entries

/-- The entries with the value of a key replaced. -/
def replace (es : Entries) (key : String) (v : Value) : Entries :=
  es.map fun e => if e.1 = key then (key, v) else e

/-- The entries with one more key at the end, which must be new. -/
def add? (es : Entries) (key : String) (v : Value) : Option Entries :=
  if (es.lookup key).isSome then none else some (es ++ [(key, v)])

/-- Acts on the table at the end of a path and tells it how that table came about. Tables that are
not there yet are made on the way; `dotted` tells that the path belongs to a dotted key. -/
def descend (dotted : Bool) (act : TableKind → Entries → Option Entries) :
    (path : List String) → (kind : TableKind) → Entries → Option Entries
  | [], kind, es => act kind es
  | key :: path, _, es =>
    match es.lookup key with
    | none =>
      let fresh : TableKind := if dotted then .dotted else .implicit
      (descend dotted act path fresh []).map fun sub => es ++ [(key, .table fresh sub)]
    | some (.table kind sub) =>
      if kind = .inline || (dotted && kind = .header) then none
      else (descend dotted act path kind sub).map fun sub => es.replace key (.table kind sub)
    | some (.tables items) =>
      match items.getLast? with
      | none => none
      | some last =>
        (descend dotted act path .header last).map fun last =>
          es.replace key (.tables (items.dropLast ++ [last]))
    | some _ => none

/-- The value of a key in the table at the end of a path. -/
def find? : (es : Entries) → (path : List String) → (key : String) → Option Value
  | es, [], key => es.lookup key
  | es, step :: path, key =>
    match es.lookup step with
    | some (.table _ sub) => find? sub path key
    | some (.tables items) => items.getLast?.bind fun last => find? last path key
    | _ => none

/-- Gives a key at the end of a dotted path its value. A table that was not made by dotted keys
takes none from afar. -/
def assign? (es : Entries) (path : List String) (key : String) (v : Value) : Option Entries :=
  descend true
    (fun kind es => if !path.isEmpty && kind ≠ .dotted then none else es.add? key v)
    path .header es

end Entries
end SandboxPool.Toml
