import LatticeLedger.Json.Value
import LatticeLedger.Ordered.Map

/-!
# Reading values

A reader takes a value and gives what it stands for, or nothing. Readers are strict about what
they ask for and silent about the rest: a field has its type or the whole value is refused, while
members with other names are passed over.
-/

namespace LatticeLedger.Json

/-- A reader of `α`. -/
abbrev Reader (α : Type) := Value → Option α

namespace Value

/-- Reads a truth value. -/
def bool? : Reader Bool
  | .bool b => some b
  | _ => none

/-- Reads a text. -/
def text? : Reader String
  | .string body => body.text?
  | _ => none

/-- Reads a natural number below a bound. -/
def natBelow? (bound : Nat) : Reader Nat
  | .number literal => literal.toNat?.filter fun n => n < bound
  | _ => none

/-- Reads a natural number of 8 bits. -/
def uint8? : Reader UInt8 := fun value => (natBelow? UInt8.size value).map UInt8.ofNat

/-- Reads a natural number of 16 bits. -/
def uint16? : Reader UInt16 := fun value => (natBelow? UInt16.size value).map UInt16.ofNat

/-- Reads a natural number of 32 bits. -/
def uint32? : Reader UInt32 := fun value => (natBelow? UInt32.size value).map UInt32.ofNat

/-- Reads a natural number of 64 bits. -/
def uint64? : Reader UInt64 := fun value => (natBelow? UInt64.size value).map UInt64.ofNat

/-- Reads a count, which must fit in 64 bits. -/
def count? : Reader Nat := natBelow? UInt64.size

/-- Reads a list. -/
def list? {α : Type} (read : Reader α) : Reader (List α)
  | .array items => items.mapM read
  | _ => none

/-- Reads one of several names: as a text, or as an object whose only member has that name and
no value. -/
def choice? {α : Type} (ofName? : String → Option α) : Reader α
  | .string body => body.text?.bind ofName?
  | .object [(name, .null)] => name.text?.bind ofName?
  | _ => none

/-- Reads an object as a map with 32-bit keys. A key is written as a plain number literal; of a
repeated key the last value counts. -/
def map? {α : Type} (read : Reader α) : Reader (OrderedMap UInt32 α)
  | .object members => do
    let entries ← members.mapM fun (name, value) => do
      let digits ← name.mapM fun
        | .plain c => some c
        | _ => none
      let (literal, rest) ← Number.scan? digits
      let key ← if rest.isEmpty then uint32? (.number literal) else none
      return (key, ← read value)
    return OrderedMap.ofList entries
  | _ => none

end Value

/-- A field of a record value: the name under which it is written, and other names under which
it may be read. -/
structure FieldName where
  name : String
  aliases : List String := []
  deriving DecidableEq, Repr

/-- Whether a field may be read under a name. -/
def FieldName.answersTo (field : FieldName) (name : String) : Bool :=
  field.name == name || field.aliases.contains name

/-- The fields that are present in a record value, under the names used in writing. -/
abbrev Fields := List (String × Value)

/-- The present fields of a record value with the given layout. An object may name its fields in
any order, but none of them twice, whatever the names used. An array gives the fields in the order
of the layout and may stop early. -/
def Value.fields? (layout : List FieldName) : Reader Fields
  | .object members => do
    let named ← members.mapM fun member => member.1.text?.map fun name => (name, member.2)
    let known := named.filterMap fun member =>
      (layout.find? fun field => field.answersTo member.1).map fun field => (field.name, member.2)
    if (known.map (·.1)).Nodup then some known else none
  | .array items =>
    if items.length ≤ layout.length then some ((layout.map (·.name)).zip items) else none
  | _ => none

namespace Fields

variable {α : Type}

/-- Reads a field that must be present. -/
def required (fields : Fields) (name : String) (read : Reader α) : Option α :=
  (fields.lookup name).bind read

/-- Reads a field that may be absent or null. -/
def optional (fields : Fields) (name : String) (read : Reader α) : Option (Option α) :=
  match fields.lookup name with
  | none | some .null => some none
  | some value => (read value).map some

/-- Reads a field that has a default when absent, but not when null. -/
def defaulted (fields : Fields) (name : String) (default : α) (read : Reader α) : Option α :=
  match fields.lookup name with
  | none => some default
  | some value => read value

end Fields

/-- The members of an object that are present. -/
def present (members : List (String × Option Value)) : List (String × Value) :=
  members.filterMap fun (name, value) => value.map fun value => (name, value)

end LatticeLedger.Json
