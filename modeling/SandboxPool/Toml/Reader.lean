/-!
# Reading text

A `Reader` takes characters from the front of a text, or fails; alternatives start again where
the first one started. The readers here are the common ones; those that repeat are bounded by the
length of what is left.
-/

namespace SandboxPool.Toml

/-- Reads something from the front of a text. -/
abbrev Reader := StateT (List Char) Option

namespace Reader

/-- The next character, which stays where it is. -/
def peek? : Reader (Option Char) := return (← get).head?

/-- The next character. -/
def next : Reader Char := do
  match ← get with
  | c :: rest => set rest; return c
  | [] => failure

/-- One of the characters of a class. -/
def one (p : Char → Bool) : Reader Char := do
  let c ← next
  if p c then return c else failure

/-- A given character. -/
def char (c : Char) : Reader Unit := do
  let _ ← one (· = c)

/-- A given word. -/
def word (s : String) : Reader Unit := s.toList.forM char

/-- The longest run of characters of a class. -/
def span (p : Char → Bool) : Reader (List Char) := do
  let (taken, rest) := List.span p (← get)
  set rest
  return taken

/-- Leaves out the longest run of characters of a class. -/
def skip (p : Char → Bool) : Reader Unit := modify (·.dropWhile p)

/-- What a reader reads, if it does. -/
def optionally {α : Type} (r : Reader α) : Reader (Option α) := (some <$> r) <|> pure none

/-- Exactly `n` characters of a class. -/
def exactly (p : Char → Bool) : (n : Nat) → Reader (List Char)
  | 0 => return []
  | n + 1 => do return (← one p) :: (← exactly p n)

/-- Things with separators between them, at least one. -/
def separatedFor {α : Type} (item : Reader α) (separator : Reader Unit) : (fuel : Nat) →
    Reader (List α)
  | 0 => failure
  | fuel + 1 => do
    let first ← item
    match ← optionally separator with
    | none => return [first]
    | some () => return first :: (← separatedFor item separator fuel)

/-- Things with separators between them, at least one. -/
def separated {α : Type} (item : Reader α) (separator : Reader Unit) : Reader (List α) := do
  separatedFor item separator ((← get).length + 1)

/-- Blanks within a line. -/
def isBlank (c : Char) : Bool := c = ' ' || c = '\t'

/-- Leaves out blanks within a line. -/
def blanks : Reader Unit := skip isBlank

/-- The end of a line. -/
def lineEnd : Reader Unit := char '\n' <|> word "\r\n"

/-- Characters of a comment. -/
def isCommentChar (c : Char) : Bool := c = '\t' || (' ' ≤ c && c ≠ Char.ofNat 0x7F)

/-- A comment up to the end of its line. -/
def comment : Reader Unit := do
  char '#'
  skip isCommentChar

/-- The end of a line, or of the text, after blanks and perhaps a comment. -/
def trailing : Reader Unit := do
  blanks
  let _ ← optionally comment
  if (← get).isEmpty then return else lineEnd

/-- Leaves out blanks, comments and ends of lines. -/
def spacingFor : (fuel : Nat) → Reader Unit
  | 0 => return
  | fuel + 1 => do
    blanks
    match ← peek? with
    | some '#' => comment; lineEnd; spacingFor fuel
    | some '\n' | some '\r' => lineEnd; spacingFor fuel
    | _ => return

/-- Leaves out blanks, comments and ends of lines; a comment needs the end of its line. -/
def spacing : Reader Unit := do
  spacingFor ((← get).length + 1)

end Reader
end SandboxPool.Toml
