import SandboxPool.Wire.TextMap

/-!
# Messages without their types

What a message holds can be told field by field, by the fields' names. `Content` is what a field
holds; a record of such contents stands for a whole message.
-/

namespace SandboxPool.Wire

/-- What a field of a message holds. -/
inductive Content where
  | text (s : String)
  | flag (b : Bool)
  | number (n : Int64)
  | map (m : TextMap)
  /-- A sub-message that is not there. -/
  | absent
  | record (fields : List (String × Content))

/-- The contents of a message, by the names of its fields. -/
abbrev Record := List (String × Content)

end SandboxPool.Wire
