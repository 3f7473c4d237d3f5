import LatticeLedger.Toml.Document

/-!
# Reading values of a document

A reader takes a value and gives what it stands for, or nothing. A section is a table whose keys
are the section's fields; other keys are passed over. A section may also be written as an array of
its fields in their order.
-/

namespace LatticeLedger.Toml

/-- A reader of `α`. -/
abbrev Reader (α : Type) := Value → Option α

namespace Value

/-- Reads a natural number below a bound. Only an integer is one. -/
def natBelow? (bound : Nat) : Reader Nat
  | .integer n => if 0 ≤ n ∧ n < bound then some n.toNat else none
  | _ => none

/-- Reads a natural number of 32 bits. -/
def uint32? : Reader UInt32 := fun value => (natBelow? UInt32.size value).map UInt32.ofNat

/-- Reads a natural number of 64 bits. -/
def uint64? : Reader UInt64 := fun value => (natBelow? UInt64.size value).map UInt64.ofNat

/-- Reads a text. -/
def text? : Reader String
  | .string text => some text
  | _ => none

/-- The items of an array, which may be written as tables that share a header. -/
def items? : Reader (List Value)
  | .array items => some items
  | .tables latestFirst => some latestFirst.reverse
  | _ => none

/-- Reads a list. -/
def list? {α : Type} (read : Reader α) : Reader (List α) := fun value => do
  (← value.items?).mapM read

/-- The fields of a section that are present. An array may stop early, and what it holds beyond
the fields is passed over. A date-time counts as a section in which every field is absent. -/
def fields? (layout : List String) : Reader Entries
  | .table _ entries => some entries
  | .dateTime => some []
  | value => value.items?.map fun items => layout.zip items

end Value

namespace Entries

variable {α : Type}

/-- Reads a field that may be absent. -/
def optional (fields : Entries) (key : String) (read : Reader α) : Option (Option α) :=
  match fields.lookup key with
  | none => some none
  | some value => (read value).map some

/-- Reads a field that has a default. -/
def defaulted (fields : Entries) (key : String) (default : α) (read : Reader α) : Option α :=
  match fields.lookup key with
  | none => some default
  | some value => read value

end Entries

end LatticeLedger.Toml
