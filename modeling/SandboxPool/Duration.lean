import SandboxPool.Number.Shortest

/-!
# Durations

A length of time in whole nanoseconds. Deadlines are quoted in whole milliseconds, diagnostics
use the largest unit that leaves a whole part and show the rest as a fraction.
-/

namespace SandboxPool

/-- A length of time. -/
structure Duration where
  nanoseconds : Nat
  deriving Repr, DecidableEq, Inhabited

namespace Duration

/-- From microseconds. -/
def ofMicros (n : Nat) : Duration := ⟨n * 1000⟩

/-- From milliseconds. -/
def ofMillis (n : Nat) : Duration := ⟨n * 1000000⟩

/-- From seconds. -/
def ofSeconds (n : Nat) : Duration := ⟨n * 1000000000⟩

/-- Whole milliseconds. -/
def millis (d : Duration) : Nat := d.nanoseconds / 1000000

/-- Whole seconds. -/
def seconds (d : Duration) : Nat := d.nanoseconds / 1000000000

/-- A number of units as a decimal: `part` of `unit`, without zeros at the end. -/
def inUnit (n unit : Nat) (name : String) : String :=
  let width := (Number.decimalDigits unit).length - 1
  let digits := Number.decimalDigits (n % unit)
  let padded := List.replicate (width - digits.length) '0' ++ digits
  let fraction := (padded.reverse.dropWhile (· = '0')).reverse
  let tail := if n % unit = 0 then "" else "." ++ String.ofList fraction
  toString (n / unit) ++ tail ++ name

/-- The text of a duration in diagnostics. -/
def diagnostic (d : Duration) : String :=
  let n := d.nanoseconds
  if 1000000000 ≤ n then inUnit n 1000000000 "s"
  else if 1000000 ≤ n then inUnit n 1000000 "ms"
  else if 1000 ≤ n then inUnit n 1000 "µs"
  else toString n ++ "ns"

end Duration
end SandboxPool
