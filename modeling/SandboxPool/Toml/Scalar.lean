import SandboxPool.Toml.Reader
import SandboxPool.Toml.Table

/-!
# Scalars of a document

Strings in four notations, integers in four bases, floats, booleans, dates and times. Digits may
be grouped by single underscores; a decimal number has no leading zero. Integers have 64 bits, and
a float that is too large is refused unless it is negative.
-/

namespace SandboxPool.Toml
namespace Scalar

open Reader

/-! ## Strings -/

/-- The character a letter after a backslash stands for. -/
def escaped? : Char → Option Char
  | 'b' => some (Char.ofNat 8)
  | 't' => some '\t'
  | 'n' => some '\n'
  | 'f' => some (Char.ofNat 12)
  | 'r' => some '\r'
  | '"' => some '"'
  | '\\' => some '\\'
  | _ => none

/-- The value of a hexadecimal digit. -/
def hexValue? (c : Char) : Option Nat :=
  if '0' ≤ c ∧ c ≤ '9' then some (c.toNat - '0'.toNat)
  else if 'a' ≤ c ∧ c ≤ 'f' then some (c.toNat - 'a'.toNat + 10)
  else if 'A' ≤ c ∧ c ≤ 'F' then some (c.toNat - 'A'.toNat + 10)
  else none

/-- The number that digits of a base stand for. -/
def ofDigits (base : Nat) (digits : List Nat) : Nat :=
  digits.foldl (fun n d => n * base + d) 0

/-- The character that hexadecimal digits stand for, if there is one. -/
def scalar? (digits : List Char) : Option Char := do
  let n := ofDigits 16 (← digits.mapM hexValue?)
  if n.isValidChar then some (Char.ofNat n) else none

/-- Characters that stand for themselves in a string. -/
def isPlain (c : Char) : Bool := isCommentChar c

/-- True if a backslash before this text swallows an end of line. -/
def continues (s : List Char) : Bool :=
  match s.dropWhile isBlank with
  | '\n' :: _ => true
  | '\r' :: '\n' :: _ => true
  | _ => false

/-- The rest of a string in double quotes. `multi` allows ends of lines, which become single line
feeds; `swallow` leaves out blanks and ends of lines up to the next other character. -/
def basicRest (multi : Bool) (swallow : Bool) (done : List Char) :
    List Char → Option (List Char × List Char)
  | [] => none
  | '"' :: rest =>
    if !multi then some (done, rest)
    else match rest with
      | '"' :: '"' :: '"' :: '"' :: rest => some ('"' :: '"' :: done, rest)
      | '"' :: '"' :: '"' :: rest => some ('"' :: done, rest)
      | '"' :: '"' :: rest => some (done, rest)
      | _ => basicRest multi false ('"' :: done) rest
  | '\\' :: 'u' :: a :: b :: c :: d :: rest =>
    match scalar? [a, b, c, d] with
    | some x => basicRest multi false (x :: done) rest
    | none => none
  | '\\' :: 'U' :: a :: b :: c :: d :: e :: f :: g :: h :: rest =>
    match scalar? [a, b, c, d, e, f, g, h] with
    | some x => basicRest multi false (x :: done) rest
    | none => none
  | '\\' :: rest =>
    if multi && continues rest then basicRest multi true done rest
    else match rest with
      | c :: rest =>
        match escaped? c with
        | some x => basicRest multi false (x :: done) rest
        | none => none
      | [] => none
  | '\r' :: '\n' :: rest =>
    if !multi then none
    else basicRest multi swallow (if swallow then done else '\n' :: done) rest
  | c :: rest =>
    if c = '\n' then
      if !multi then none
      else basicRest multi swallow (if swallow then done else '\n' :: done) rest
    else if isBlank c then basicRest multi swallow (if swallow then done else c :: done) rest
    else if isPlain c then basicRest multi false (c :: done) rest
    else none

/-- The rest of a string in single quotes, which has no escapes. -/
def literalRest (multi : Bool) (done : List Char) : List Char → Option (List Char × List Char)
  | [] => none
  | '\'' :: rest =>
    if !multi then some (done, rest)
    else match rest with
      | '\'' :: '\'' :: '\'' :: '\'' :: rest => some ('\'' :: '\'' :: done, rest)
      | '\'' :: '\'' :: '\'' :: rest => some ('\'' :: done, rest)
      | '\'' :: '\'' :: rest => some (done, rest)
      | _ => literalRest multi ('\'' :: done) rest
  | '\r' :: '\n' :: rest => if multi then literalRest multi ('\n' :: done) rest else none
  | c :: rest =>
    if c = '\n' then if multi then literalRest multi (c :: done) rest else none
    else if isPlain c then literalRest multi (c :: done) rest
    else none

/-- A string whose rest is read by `rest`. -/
def stringRest (rest : List Char → Option (List Char × List Char)) : Reader String := do
  match rest (← get) with
  | some (done, rest) => set rest; return String.ofList done.reverse
  | none => failure

/-- A string on one line, in double or in single quotes. -/
def quoted : Reader String :=
  (do char '"'; stringRest (basicRest false false [])) <|>
    (do char '\''; stringRest (literalRest false []))

/-- A string over several lines. An end of line right after the opening does not count. -/
def longQuoted : Reader String :=
  (do word "\"\"\""; let _ ← optionally lineEnd; stringRest (basicRest true false [])) <|>
    (do word "'''"; let _ ← optionally lineEnd; stringRest (literalRest true []))

/-! ## Numbers -/

/-- True if single underscores stand between digits only. -/
def wellGrouped : List Char → Bool
  | [] => false
  | '_' :: _ => false
  | [_] => true
  | _ :: '_' :: rest => wellGrouped rest
  | _ :: c :: rest => wellGrouped (c :: rest)

/-- Grouped digits of a base, without the underscores. -/
def digits (base : Nat) : Reader (List Nat) := do
  let isDigit (c : Char) := match hexValue? c with
    | some d => d < base
    | none => false
  let group ← span fun c => isDigit c || c = '_'
  if wellGrouped group then return group.filterMap hexValue? else failure

/-- Digits of a decimal number, without a leading zero. -/
def decimalDigits : Reader (List Nat) := do
  let ds ← digits 10
  match ds with
  | 0 :: _ :: _ => failure
  | _ => return ds

/-- A sign; true for a minus. -/
def sign : Reader Bool := do
  match ← peek? with
  | some '-' => char '-'; return true
  | some '+' => char '+'; return false
  | _ => return false

/-- The number with its sign. -/
def signed (negative : Bool) (n : Nat) : Int := if negative then -n else n

/-- An integer in 64 bits. -/
def fitting (n : Int) : Reader Value :=
  if -0x8000000000000000 ≤ n ∧ n < 0x8000000000000000 then return .integer n else failure

/-- An integer in a base that its letter names. -/
def based (letter : Char) (base : Nat) : Reader Value := do
  char '0'
  char letter
  fitting (ofDigits base (← digits base))

/-- A decimal integer. -/
def integer : Reader Value := do
  let negative ← sign
  fitting (signed negative (ofDigits 10 (← decimalDigits)))

/-- The sign bit of a double. -/
def signBit (negative : Bool) : UInt64 := if negative then 0x8000000000000000 else 0

/-- The bits of a positive infinity. -/
def infinityBits : UInt64 := 0x7FF0000000000000

/-- The double nearest to a decimal. -/
def nearest (significand : Nat) (exponent : Int) : UInt64 :=
  let place := exponent + (Nat.toDigits 10 significand).length
  if significand = 0 ∨ place < -400 then 0
  else if 400 < place then infinityBits
  else if exponent < 0 then (Float.ofScientific significand true exponent.natAbs).toBits
  else (Float.ofScientific significand false exponent.natAbs).toBits

/-- The digits after a point. -/
def fraction : Reader (List Nat) := do
  char '.'
  digits 10

/-- A power of ten. -/
def exponent : Reader Int := do
  let _ ← one fun c => c = 'e' || c = 'E'
  let negative ← sign
  return signed negative (ofDigits 10 (← digits 10))

/-- A float with a point, an exponent or both. -/
def real : Reader Value := do
  let negative ← sign
  let whole ← decimalDigits
  let places ← optionally fraction
  let power ← optionally exponent
  if places.isNone && power.isNone then failure
  let places := places.getD []
  let bits := nearest (ofDigits 10 (whole ++ places)) (power.getD 0 - places.length)
  if bits = infinityBits && !negative then failure
  return .real (signBit negative ||| bits)

/-- Infinity, or no number. -/
def specialReal : Reader Value := do
  let negative ← sign
  (do word "inf"; return .real (signBit negative ||| infinityBits)) <|>
    (do word "nan"; return .real (signBit negative ||| 0x7FF8000000000000))

/-! ## Dates and times -/

/-- A number of so many digits. -/
def number (count : Nat) : Reader Nat := do
  return ofDigits 10 ((← exactly Char.isDigit count).filterMap hexValue?)

/-- A number of two digits between bounds. -/
def bounded (lowest highest : Nat) : Reader Nat := do
  let n ← number 2
  if lowest ≤ n && n ≤ highest then return n else failure

/-- The number of days of a month. -/
def daysOf (year month : Nat) : Nat :=
  if month = 2 then
    if year % 4 = 0 ∧ (year % 100 ≠ 0 ∨ year % 400 = 0) then 29 else 28
  else if month = 4 ∨ month = 6 ∨ month = 9 ∨ month = 11 then 30
  else 31

/-- A date. -/
def date : Reader Unit := do
  let year ← number 4
  char '-'
  let month ← bounded 1 12
  char '-'
  let _ ← bounded 1 (daysOf year month)

/-- A time of day; a minute may have a leap second. -/
def time : Reader Unit := do
  let _ ← bounded 0 23
  char ':'
  let _ ← bounded 0 59
  char ':'
  let _ ← bounded 0 60
  let _ ← optionally do
    char '.'
    let _ ← one Char.isDigit
    skip Char.isDigit

/-- How far a time is from that of Greenwich. -/
def offset : Reader Unit :=
  (do let _ ← one fun c => c = 'Z' || c = 'z') <|> do
    let _ ← one fun c => c = '+' || c = '-'
    let _ ← bounded 0 23
    char ':'
    let _ ← bounded 0 59

/-- A date, a time of day, or both. -/
def moment : Reader Value :=
  (do
    date
    let _ ← optionally do
      let _ ← one fun c => c = 'T' || c = 't' || c = ' '
      time
      let _ ← optionally offset
    return .moment) <|> (do time; return .moment)

/-! ## All of them -/

/-- A boolean. -/
def boolean : Reader Value :=
  (do word "true"; return .boolean true) <|> (do word "false"; return .boolean false)

/-- Any scalar. -/
def read : Reader Value :=
  (.text <$> longQuoted) <|> (.text <$> quoted) <|> boolean <|> moment <|> real <|>
    specialReal <|> based 'x' 16 <|> based 'o' 8 <|> based 'b' 2 <|> integer

end Scalar
end SandboxPool.Toml
