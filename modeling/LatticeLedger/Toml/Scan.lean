/-!
# Scanning text

A scan takes a piece from the front of a text, or fails. Alternatives start again where the first
of them started, and a repetition goes on as long as its item succeeds.
-/

namespace LatticeLedger.Toml

/-- A way to take something from the front of a text. -/
abbrev Scan (α : Type) := StateT (List Char) Option α

namespace Scan

variable {α β : Type}

/-- Takes one character of a class. -/
def one (accepts : Char → Bool) : Scan Char
  | c :: rest => if accepts c then some (c, rest) else none
  | [] => none

/-- Takes one given character. -/
def char (expected : Char) : Scan Char := one (· == expected)

/-- Takes a given sequence of characters. -/
def word (expected : String) : Scan Unit := fun text =>
  if expected.toList.isPrefixOf text then some ((), text.drop expected.length) else none

/-- Takes all characters of a class at the front. -/
def span (accepts : Char → Bool) : Scan (List Char) := fun text =>
  some (text.takeWhile accepts, text.dropWhile accepts)

/-- Succeeds at the end of the text. -/
def atEnd : Scan Unit := fun text => if text.isEmpty then some ((), text) else none

/-- Takes items as long as they follow, at most one for each element of `bound`. -/
def takeItems (item : Scan α) : List Char → List Char → List α × List Char
  | [], text => ([], text)
  | _ :: bound, text =>
    match item text with
    | some (a, rest) =>
      let (items, rest) := takeItems item bound rest
      (a :: items, rest)
    | none => ([], text)

/-- Takes items as long as they follow. Every item takes at least one character, so the text itself
bounds their number. -/
def many (item : Scan α) : Scan (List α) := fun text => some (takeItems item text text)

/-- Takes one or more items with a separator between neighbours. -/
def separated (item : Scan α) (separator : Scan β) : Scan (List α) := do
  let first ← item
  let rest ← many (do let _ ← separator; item)
  return first :: rest

/-- Fails unless a condition holds. -/
def ensure (condition : Bool) : Scan Unit := if condition then pure () else failure

end Scan

/-- Whether a character is a blank within a line. -/
def isBlank (c : Char) : Bool := c == ' ' || c == '\t'

/-- Whether a character is beyond ASCII. -/
def isWide (c : Char) : Bool := 0x80 ≤ c.toNat

/-- Takes the blanks at the front. -/
def blanks : Scan Unit := do let _ ← Scan.span isBlank

/-- Takes a line break: a line feed, alone or after a carriage return. -/
def lineBreak : Scan Unit := Scan.word "\n" <|> Scan.word "\r\n"

/-- Takes a comment, without the line break after it. -/
def comment : Scan Unit := do
  let _ ← Scan.char '#'
  let _ ← Scan.span fun c => c == '\t' || (0x20 ≤ c.toNat && c.toNat ≤ 0x7E) || isWide c

/-- Takes what may follow on a line and the end of the line. -/
def lineRest : Scan Unit := do
  blanks
  let _ ← optional comment
  lineBreak <|> Scan.atEnd

/-- Takes blanks, line breaks and comments. -/
def blankLines : Scan Unit := do
  let _ ← Scan.many
    ((do let _ ← Scan.one isBlank) <|> lineBreak <|> (do comment; lineBreak))

end LatticeLedger.Toml
