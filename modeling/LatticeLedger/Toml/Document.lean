import LatticeLedger.Toml.Scalar

/-!
# Documents

A document is read line by line: headers open tables, and other lines put values under keys of the
open table. Arrays and inline tables nest within each other up to a limit.
-/

namespace LatticeLedger.Toml

open Scan

/-- Arrays and inline tables nest less deeply than this, and dotted keys have fewer parts. -/
def nestingLimit : Nat := 80

/-- Whether a character may stand in a key without quotes. -/
def isBareKey (c : Char) : Bool := c.isAlphanum || c == '_' || c == '-'

/-- Takes one part of a key. -/
def keyPart : Scan String :=
  lineString '"' <|> lineString '\'' <|> do
    let first ← one isBareKey
    let rest ← span isBareKey
    return String.ofList (first :: rest)

/-- Takes a dotted key, and gives its last part apart from those before it. -/
def key : Scan (List String × String) := do
  let parts ← separated (do blanks; let part ← keyPart; blanks; return part) (char '.')
  ensure (parts.length < nestingLimit)
  return (parts.dropLast, parts.getLastD "")

/-- Takes a key and a value with an equals sign between them. -/
def keyValue (value : Scan Value) : Scan (List String × String × Value) := do
  let (path, key) ← key
  let _ ← char '='
  blanks
  return (path, key, ← value)

/-- Takes an array. Line breaks and comments may stand around its items, and a comma after the
last. -/
def array (value : Scan Value) : Scan Value := do
  let _ ← char '['
  blankLines
  let items ← optional (do
    let items ← separated (do blankLines; let item ← value; blankLines; return item) (char ',')
    let _ ← optional (char ',')
    return items)
  blankLines
  let _ ← char ']'
  return .array (items.getD [])

/-- Takes an inline table, which stands on one line and has no comma after the last entry. -/
def inlineTable (value : Scan Value) : Scan Value := do
  let _ ← char '\x7b'
  let pairs ← optional
    (separated (do let pair ← keyValue value; blanks; return pair) (char ','))
  blanks
  let _ ← char '\x7d'
  match Value.inlineTable? (pairs.getD []) with
  | some table => return table
  | none => failure

/-- Takes a value in which containers nest at most `levels` deep. -/
def value : Nat → Scan Value
  | 0 => scalar
  | levels + 1 => scalar <|> array (value levels) <|> inlineTable (value levels)

/-- Takes a header. -/
def header : Scan Statement :=
  (do
    word "[["
    let (path, key) ← key
    word "]]"
    return .element path key) <|>
  (do
    word "["
    let (path, key) ← key
    word "]"
    return .header path key)

/-- Takes a line that says something, and the blanks before the next. -/
def statement : Scan Statement := do
  let statement ← header <|> do
    let (path, key, value) ← keyValue (value (nestingLimit - 1))
    return .assign path key value
  lineRest
  blanks
  return statement

/-- Takes a line that says nothing, and the blanks before the next. -/
def emptyLine : Scan Unit := do
  lineBreak <|> (do comment; lineBreak <|> atEnd)
  blanks

/-- Takes a whole document. A byte order mark may stand before it. -/
def document : Scan (List Statement) := do
  let _ ← optional (char '\uFEFF')
  blanks
  let lines ← many ((do emptyLine; return none) <|> (do return some (← statement)))
  atEnd
  return lines.filterMap id

/-- The root table of a text. -/
def parse? (text : String) : Option Value := do
  let (statements, _) ← document.run text.toList
  return .table .header (← Entries.ofStatements? statements)

end LatticeLedger.Toml
