import LatticeLedger.Toml.Scan

/-!
# Strings

A string is basic, with escapes, or literal, without; and it stands on one line, or between triple
quotes on any number of them. Between triple quotes, up to two quotes are part of the string even
right before the closing ones, and a line break is read as a line feed.
-/

namespace LatticeLedger.Toml

open Scan

/-- Whether a character may stand for itself between quotes of a kind. Basic strings reserve the
backslash as well. -/
def isPlain (quote : Char) (c : Char) : Bool :=
  (c == '\t' || (0x20 ≤ c.toNat && c.toNat ≤ 0x7E) || isWide c) && c != quote &&
    (quote != '"' || c != '\\')

/-- Whether a character is a hexadecimal digit. -/
def isHexDigit (c : Char) : Bool :=
  c.isDigit || ('a' ≤ c && c ≤ 'f') || ('A' ≤ c && c ≤ 'F')

/-- The value of a digit in a base up to sixteen. -/
def digitValue (c : Char) : Nat :=
  if c.isDigit then c.toNat - '0'.toNat
  else if 'a' ≤ c ∧ c ≤ 'f' then c.toNat - 'a'.toNat + 10
  else c.toNat - 'A'.toNat + 10

/-- The number that digits write in a base. -/
def numberOf (base : Nat) (digits : List Char) : Nat :=
  digits.foldl (fun n digit => n * base + digitValue digit) 0

/-- Takes a fixed number of digits of a class. -/
def exactly (accepts : Char → Bool) : Nat → Scan (List Char)
  | 0 => pure []
  | count + 1 => do
    let digit ← one accepts
    let digits ← exactly accepts count
    return digit :: digits

/-- Takes the digits of a code point and gives its character, unless there is none. -/
def codePoint (count : Nat) : Scan Char := do
  let n := numberOf 16 (← exactly isHexDigit count)
  ensure (n < 0xD800 || (0xE000 ≤ n && n < 0x110000))
  return Char.ofNat n

/-- The letters that follow a backslash, with the characters that they stand for. -/
def escapeLetters : List (Char × Char) :=
  [('b', '\x08'), ('t', '\t'), ('n', '\n'), ('f', '\x0c'), ('r', '\r'), ('"', '"'), ('\\', '\\')]

/-- Takes an escaped character. -/
def escape : Scan Char := do
  let _ ← char '\\'
  let letter ← one fun _ => true
  match escapeLetters.find? fun entry => entry.1 == letter with
  | some entry => return entry.2
  | none =>
    if letter = 'u' then codePoint 4
    else if letter = 'U' then codePoint 8
    else failure

/-- Takes one character of a string on one line. -/
def lineChar (quote : Char) : Scan Char :=
  one (isPlain quote) <|> (if quote = '"' then escape else failure)

/-- Takes a string on one line. -/
def lineString (quote : Char) : Scan String := do
  let _ ← char quote
  let text ← many (lineChar quote)
  let _ ← char quote
  return String.ofList text

/-- Takes a backslash that joins lines: the line break after it and all white space that follows
are not part of the string. -/
def joinLines : Scan Unit := do
  let _ ← char '\\'
  blanks
  lineBreak
  let _ ← many ((do let _ ← one isBlank) <|> lineBreak)

/-- Takes one or two quotes that do not close a string. -/
def innerQuotes (quote : Char) : Scan (List Char) := do
  let quotes ← span (· == quote)
  ensure (quotes.length == 1 || quotes.length == 2)
  return quotes

/-- Takes one part of a string between triple quotes. -/
def blockPart (quote : Char) : Scan (List Char) :=
  (do return [← one (isPlain quote)]) <|>
    (do lineBreak; return ['\n']) <|>
    (if quote = '"' then (do joinLines; return []) <|> (do return [← escape]) else failure) <|>
    innerQuotes quote

/-- Takes a string between triple quotes. A line break right after the opening is dropped. -/
def blockString (quote : Char) : Scan String := do
  word (String.ofList [quote, quote, quote])
  let _ ← optional lineBreak
  let parts ← many (blockPart quote)
  let closing ← span (· == quote)
  ensure (3 ≤ closing.length && closing.length ≤ 5)
  return String.ofList (parts.flatten ++ closing.drop 3)

/-- Takes a string of any of the four forms. -/
def string : Scan String :=
  blockString '"' <|> blockString '\'' <|> lineString '"' <|> lineString '\''

end LatticeLedger.Toml
