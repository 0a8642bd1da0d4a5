import SandboxPool.Text.Escaped

/-!
# Texts and values in diagnostics

How a diagnostic shows a text between quotation marks, a list, an optional value, and a value
with named fields. A quoted text never holds a bare quotation mark or a line break.
-/

namespace SandboxPool.Text

/-- The lower-case hexadecimal digits of a number, at least one. -/
def hex (n : Nat) : String :=
  String.ofList (Nat.toDigits 16 n)

/-- The lower-case hexadecimal digits of a number, filled up with zeros to `width`. -/
def hexPadded (width n : Nat) : String :=
  let digits := hex n
  String.ofList (List.replicate (width - digits.length) '0') ++ digits

/-- One character inside quotation marks. -/
def quoteChar (c : Char) : String :=
  if c = '"' then "\\\""
  else if c = '\\' then "\\\\"
  else if c = '\n' then "\\n"
  else if c = '\r' then "\\r"
  else if c = '\t' then "\\t"
  else if c = Char.ofNat 0 then "\\0"
  else if isEscaped c then "\\u\x7b" ++ hex c.toNat ++ "\x7d"
  else c.toString

/-- A text between quotation marks. -/
def quote (s : String) : String :=
  "\"" ++ String.join (s.toList.map quoteChar) ++ "\""

/-- Texts with a separator between them. -/
def separated (separator : String) (items : List String) : String :=
  separator.intercalate items

/-- A list of rendered values. -/
def brackets (items : List String) : String :=
  "[" ++ separated ", " items ++ "]"

/-- An optional value. -/
def optional (render : α → String) : Option α → String
  | none => "None"
  | some a => "Some(" ++ render a ++ ")"

/-- A value with named fields; one without fields is its name alone. -/
def record (name : String) (fields : List (String × String)) : String :=
  if fields.isEmpty then name
  else name ++ " \x7b " ++ separated ", " (fields.map fun f => f.1 ++ ": " ++ f.2) ++ " \x7d"

/-- A value of which only some fields are shown. -/
def openRecord (name : String) (fields : List (String × String)) : String :=
  name ++ " \x7b " ++ String.join (fields.map fun f => f.1 ++ ": " ++ f.2 ++ ", ") ++ ".. \x7d"

/-- The text of a truth value. -/
def ofBool (b : Bool) : String :=
  if b then "true" else "false"

end SandboxPool.Text
