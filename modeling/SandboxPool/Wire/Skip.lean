import SandboxPool.Wire.Varint

/-!
# Going past unknown fields

A reader that does not know a tag goes past the value by its wire type. A group goes on to the
end marker with its own tag and may hold further groups; `budget` bounds how deep.
-/

namespace SandboxPool.Wire

mutual

/-- Goes past the value of a field. Of `fuel`, two for every byte of the input are enough. -/
def skipField : (fuel budget : Nat) → Key → Input → Result Input
  | 0, _, _, _ => fail .underflow
  | fuel + 1, budget, key, i =>
    if budget = 0 then fail .tooDeep
    else match key.wireType with
      | .varint => do
        let (_, i) ← readVarint i
        return i
      | .fixed32 => advance 4 i
      | .fixed64 => advance 8 i
      | .delimited => do
        let (n, i) ← readVarint i
        advance n i
      | .groupStart => skipGroup fuel budget key.tag i
      | .groupEnd => fail .strayGroupEnd

/-- Goes past the fields of a group and its end marker. -/
def skipGroup : (fuel budget tag : Nat) → Input → Result Input
  | 0, _, _, _ => fail .underflow
  | fuel + 1, budget, tag, i => do
    let (key, i) ← readKey i
    if key.wireType = .groupEnd then
      if key.tag = tag then return i else fail .strayGroupEnd
    else
      let i ← skipField fuel (budget - 1) key i
      skipGroup fuel budget tag i

end

end SandboxPool.Wire
