import SandboxPool.Toml.Document

/-!
# From document values to settings

A `Shape` reads one kind of setting from a value of a document. A section is a structure whose
fields all have defaults: as a table it is filled by name, in the order of the document, and names
nobody asked for do not matter; as an array it is filled in the order of the fields. The first
value that does not fit is reported.
-/

namespace SandboxPool.Config

open Toml (Value)

/-- Why a value does not fit. -/
inductive Misfit where
  /-- A value of another type. -/
  | wrongType (actual expected : String)
  /-- A negative number. -/
  | negative (n : Int) (expected : String)
  /-- A name that is not among the choices. -/
  | unknownChoice (actual : String) (choices : List String)
  /-- Neither a name nor a table. -/
  | noChoice
  /-- A table in place of a name that does not have exactly one key. -/
  | choiceCount (several : Bool)
  /-- A table in place of a name whose only value is not empty. -/
  | choiceContent (expected : String)
  /-- A table in place of a name whose only value is a scalar. -/
  | choiceScalar (actual : String)
  deriving Repr, DecidableEq

/-- Choices in a refusal. -/
def choiceList (choices : List String) : String :=
  let quoted := choices.map fun c => "`" ++ c ++ "`"
  match quoted with
  | [a] => a
  | [a, b] => a ++ " or " ++ b
  | _ => "one of " ++ Text.separated ", " quoted

/-- The words for a misfit. -/
def Misfit.message : Misfit → String
  | wrongType actual expected => "invalid type: " ++ actual ++ ", expected " ++ expected
  | negative n expected =>
    "invalid value: integer `" ++ toString n ++ "`, expected " ++ expected
  | unknownChoice actual choices =>
    "unknown variant `" ++ actual ++ "`, expected " ++ choiceList choices
  | noChoice => "wanted string or table"
  | choiceCount several =>
    "wanted exactly 1 element, " ++
      (if several then "more than 1 element" else "found 0 elements")
  | choiceContent expected => "expected empty " ++ expected
  | choiceScalar actual => "expected table, found " ++ actual

/-- Reads a setting from a value. -/
abbrev Shape (α : Type) := Value → Except Misfit α

namespace Shape

/-- A text; `expected` names what it stands for. -/
def text (expected : String) : Shape String
  | .text s => .ok s
  | v => .error (.wrongType v.described expected)

/-- A number that is not negative; `expected` names its type. -/
def count (expected : String) : Shape Nat
  | .integer n => if 0 ≤ n then .ok n.toNat else .error (.negative n expected)
  | v => .error (.wrongType v.described expected)

/-- A boolean. -/
def flag : Shape Bool
  | .boolean b => .ok b
  | v => .error (.wrongType v.described "a boolean")

/-- The choice of a name. -/
def named {α : Type} (choices : List (String × α)) (name : String) : Except Misfit α :=
  match choices.lookup name with
  | some a => .ok a
  | none => .error (.unknownChoice name (choices.map Prod.fst))

/-- Refuses a value beside a choice that holds anything. -/
def hollow : Value → Except Misfit Unit
  | .array [] | .table _ [] | .tables [] => .ok ()
  | .array _ | .table .. => .error (.choiceContent "table")
  | .tables _ => .error (.choiceContent "array")
  | v => .error (.choiceScalar v.typeName)

/-- One of several names; the name may also be the only key of a table, with nothing under it. -/
def choice {α : Type} (choices : List (String × α)) : Shape α
  | .text s => named choices s
  | .table _ [] => .error (.choiceCount false)
  | .table _ [(key, v)] => do
    let a ← named choices key
    hollow v
    return a
  | .table .. => .error (.choiceCount true)
  | _ => .error .noChoice

/-- A field of a section: its name, and how its value changes the section. -/
abbrev Field (σ : Type) := String × (σ → Shape σ)

/-- A field that a shape reads. -/
def field {σ α : Type} (name : String) (shape : Shape α) (set : σ → α → σ) : Field σ :=
  (name, fun s v => (shape v).map (set s))

/-- Fills a section by name. -/
def byName {σ : Type} (fields : List (Field σ)) (s : σ) (es : Toml.Entries) : Except Misfit σ :=
  es.foldlM (fun s e =>
    match fields.lookup e.1 with
    | some read => read s e.2
    | none => .ok s) s

/-- Fills a section in the order of its fields; what is left over does not matter. -/
def inOrder {σ : Type} (fields : List (Field σ)) (s : σ) (vs : List Value) : Except Misfit σ :=
  (fields.zip vs).foldlM (fun s p => p.1.2 s p.2) s

/-- A section with defaults; `name` stands for it in a refusal. -/
def structured {σ : Type} (name : String) (fields : List (Field σ)) (default : σ) : Shape σ
  | .table _ es => byName fields default es
  | .array vs => inOrder fields default vs
  | .tables items => inOrder fields default (items.map (Value.table .header))
  | .moment => .ok default
  | v => .error (.wrongType v.described ("struct " ++ name))

end Shape
end SandboxPool.Config
