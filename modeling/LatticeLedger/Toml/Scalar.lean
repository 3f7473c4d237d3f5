import LatticeLedger.Numeric.Binary64
import LatticeLedger.Toml.Table
import LatticeLedger.Toml.Text

/-!
# Numbers, date-times and truth values

Integers have 64 bits with a sign and may be written in four bases. Floats must not be too large to
be finite; below zero there is no such limit. Date-times must exist in the calendar.
-/

namespace LatticeLedger.Toml

open Scan

/-- Takes digits with single underscores between them, and gives the digits. -/
def digitRun (accepts : Char → Bool) : Scan (List Char) := do
  let first ← one accepts
  let rest ← many (one accepts <|> (do let _ ← char '_'; one accepts))
  return first :: rest

/-- Takes a sign if there is one, and tells whether it is a minus. -/
def sign : Scan Bool := do
  match ← optional (one fun c => c == '+' || c == '-') with
  | some '-' => return true
  | _ => return false

/-- Takes the digits of a decimal number without leading zeros. -/
def wholeDigits : Scan (List Char) :=
  (do return [← char '0']) <|> digitRun Char.isDigit

/-- Takes an exponent. -/
def exponent : Scan Int := do
  let _ ← one fun c => c == 'e' || c == 'E'
  let negative ← sign
  let n := numberOf 10 (← digitRun Char.isDigit)
  return if negative then -(n : Int) else n

/-- Takes the digits after a point, with the point. -/
def fraction : Scan (List Char) := do
  let _ ← char '.'
  digitRun Char.isDigit

/-- Takes a float written in digits. -/
def digitFloat : Scan Value := do
  let negative ← sign
  let whole ← wholeDigits
  let (fraction, exponent) ←
    (do return ([], ← exponent)) <|> (do return (← fraction, (← optional exponent).getD 0))
  let significand := numberOf 10 (whole ++ fraction)
  ensure (negative || !Binary64.decimalOverflows significand (exponent - fraction.length))
  return .float

/-- Takes a float written in letters. -/
def wordFloat : Scan Value := do
  let _ ← sign
  word "inf" <|> word "nan"
  return .float

/-- Takes an integer with a prefix that names its base. -/
def basedInteger (mark : String) (base : Nat) (accepts : Char → Bool) : Scan Value := do
  word mark
  let n := numberOf base (← digitRun accepts)
  ensure (n < 1 <<< 63)
  return .integer n

/-- Takes a decimal integer. -/
def decimalInteger : Scan Value := do
  let negative ← sign
  let n := numberOf 10 (← wholeDigits)
  ensure (if negative then n ≤ 1 <<< 63 else n < 1 <<< 63)
  return .integer (if negative then -(n : Int) else n)

/-- Takes an integer. -/
def integer : Scan Value :=
  basedInteger "0x" 16 isHexDigit <|>
    basedInteger "0o" 8 (fun c => '0' ≤ c && c ≤ '7') <|>
    basedInteger "0b" 2 (fun c => c == '0' || c == '1') <|>
    decimalInteger

/-- Takes a fixed number of decimal digits whose number lies between two bounds. -/
def between (count low high : Nat) : Scan Nat := do
  let n := numberOf 10 (← exactly Char.isDigit count)
  ensure (low ≤ n && n ≤ high)
  return n

/-- The number of days of a month. -/
def daysOf (year month : Nat) : Nat :=
  if month = 2 then
    if year % 4 = 0 ∧ (year % 100 ≠ 0 ∨ year % 400 = 0) then 29 else 28
  else if month = 4 ∨ month = 6 ∨ month = 9 ∨ month = 11 then 30
  else 31

/-- Takes a date. -/
def date : Scan Unit := do
  let year ← between 4 0 9999
  let _ ← char '-'
  let month ← between 2 1 12
  let _ ← char '-'
  let _ ← between 2 1 (daysOf year month)

/-- Takes a time of day; a minute may have a leap second. -/
def time : Scan Unit := do
  let _ ← between 2 0 23
  let _ ← char ':'
  let _ ← between 2 0 59
  let _ ← char ':'
  let _ ← between 2 0 60
  let _ ← optional (do
    let _ ← char '.'
    let _ ← one Char.isDigit
    span Char.isDigit)

/-- Takes an offset from universal time. -/
def timeOffset : Scan Unit :=
  (do let _ ← one fun c => c == 'Z' || c == 'z') <|> do
    let _ ← one fun c => c == '+' || c == '-'
    let _ ← between 2 0 23
    let _ ← char ':'
    let _ ← between 2 0 59

/-- Takes a date, a time, or a date with a time and perhaps an offset. -/
def dateTime : Scan Value :=
  (do
    date
    let _ ← optional (do
      let _ ← one fun c => c == 'T' || c == 't' || c == ' '
      time
      optional timeOffset)
    return .dateTime) <|>
  (do time; return .dateTime)

/-- Takes a truth value. -/
def boolean : Scan Value :=
  (do word "true"; return .boolean true) <|> (do word "false"; return .boolean false)

/-- Takes a value that holds no other values. -/
def scalar : Scan Value :=
  (do return .string (← string)) <|> dateTime <|> digitFloat <|> wordFloat <|> integer <|> boolean

end LatticeLedger.Toml
