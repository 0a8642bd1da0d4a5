import SandboxPool.Value

/-!
# The functions a guest may import

Host functions are offered to guests by group and name. A pair can be defined once; the first
definition stays. The entries stand in the order of their pairs, compared by code point, so
the order of the definitions leaves no trace.
-/

namespace SandboxPool

/-- A pair of names before another one. -/
def PairLt (a b : String × String) : Prop :=
  a.1 < b.1 ∨ (a.1 = b.1 ∧ a.2 < b.2)

instance (a b : String × String) : Decidable (PairLt a b) :=
  inferInstanceAs (Decidable (_ ∨ _))

/-- An entry of a namespace. -/
structure Import (F : Type) where
  group : String
  name : String
  function : F
  deriving Repr, DecidableEq

/-- The pair of names of an entry. -/
def Import.pair {F : Type} (i : Import F) : String × String := (i.group, i.name)

/-- Functions by group and name, in the order of their pairs. -/
structure Namespace (F : Type) where
  entries : List (Import F)
  deriving Repr

namespace Namespace

variable {F : Type}

/-- No functions. -/
def empty : Namespace F := ⟨[]⟩

instance : Inhabited (Namespace F) := ⟨empty⟩

/-- The function of a pair. -/
def get? (ns : Namespace F) (group name : String) : Option F :=
  (ns.entries.find? fun e => e.group = group ∧ e.name = name).map Import.function

/-- True if the pair is defined. -/
def contains (ns : Namespace F) (group name : String) : Bool :=
  (ns.get? group name).isSome

/-- Puts an entry at its place. -/
def insertEntry (i : Import F) : List (Import F) → List (Import F)
  | [] => [i]
  | e :: rest => if PairLt e.pair i.pair then e :: insertEntry i rest else i :: e :: rest

/-- Defines a function, unless the pair is defined. -/
def define (ns : Namespace F) (group name : String) (function : F) : Outcome (Namespace F) :=
  if ns.contains group name then refuse (.duplicateFunction group name)
  else .ok ⟨insertEntry ⟨group, name, function⟩ ns.entries⟩

/-- Defines functions one after another up to the first that is defined, and tells how that
went; what was defined before it stays. -/
def register (ns : Namespace F) (group : String) :
    List (String × F) → Outcome Unit × Namespace F
  | [] => (.ok (), ns)
  | (name, function) :: rest =>
    match ns.define group name function with
    | .ok ns => ns.register group rest
    | .error e => (.error e, ns)

/-- The number of functions. -/
def size (ns : Namespace F) : Nat := ns.entries.length

end Namespace
end SandboxPool
