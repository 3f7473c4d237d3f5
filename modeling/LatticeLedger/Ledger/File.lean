import LatticeLedger.Json.Limits
import LatticeLedger.Json.Reader
import LatticeLedger.Ledger.Record

/-!
# Ledger files

A ledger file is a JSON array of records, or an object that holds such an array under `entries`.
Absent fields are left out in writing. Class and coordinate of a context may be read under a short
or a long name, but not under both at once.
-/

namespace LatticeLedger

open Json

namespace LoggedContext

/-- The fields of a context in a file. -/
def layout : List FieldName :=
  [{ name := "class", aliases := ["class_id"] }, { name := "coord", aliases := ["coord_idx"] },
    { name := "anchor" }, { name := "v_bits" }, { name := "row" }, { name := "col" },
    { name := "ace" }]

/-- Reads a context. -/
def ofJson? : Reader LoggedContext := fun value => do
  let fields ← value.fields? layout
  return {
    classId := ← fields.optional "class" Value.uint32?
    coord := ← fields.optional "coord" Value.uint32?
    anchor := ← fields.optional "anchor" Value.uint32?
    vBits := ← fields.optional "v_bits" Value.uint32?
    row := ← fields.optional "row" Value.uint32?
    col := ← fields.optional "col" Value.uint32?
    step := ← fields.optional "ace" Value.text? }

/-- A context as it is written. -/
def toJson (context : LoggedContext) : Value :=
  let word (n : Option UInt32) := n.map fun n => Value.ofNat n.toNat
  .ofMembers (present
    [("class", word context.classId), ("coord", word context.coord),
      ("anchor", word context.anchor), ("v_bits", word context.vBits), ("row", word context.row),
      ("col", word context.col), ("ace", context.step.map Value.ofString)])

/-- Reads the text of a context. -/
def parse? (text : String) : Option LoggedContext := (Value.ofText? text).bind ofJson?

end LoggedContext

namespace Record

/-- The fields of a record in a file. -/
def layout : List FieldName :=
  [{ name := "kind" }, { name := "status" }, { name := "entry_id" }, { name := "t" },
    { name := "context" }]

/-- Reads a record. -/
def ofJson? : Reader Record := fun value => do
  let fields ← value.fields? layout
  return {
    kind := ← fields.optional "kind" Value.text?
    status := ← fields.optional "status" Value.text?
    entryId := ← fields.optional "entry_id" Value.text?
    t := ← fields.optional "t" Value.uint64?
    context := ← fields.optional "context" LoggedContext.ofJson? }

/-- A record as it is written. -/
def toJson (record : Record) : Value :=
  .ofMembers (present
    [("kind", record.kind.map Value.ofString), ("status", record.status.map Value.ofString),
      ("entry_id", record.entryId.map Value.ofString),
      ("t", record.t.map fun t => Value.ofNat t.toNat),
      ("context", record.context.map LoggedContext.toJson)])

/-- Reads the text of a record. -/
def parse? (text : String) : Option Record := (Value.ofText? text).bind ofJson?

end Record

/-- The text of a ledger file is not that of a ledger. -/
inductive LedgerFileError
  | json
  deriving DecidableEq, Repr

/-- The wording of a ledger file error. -/
def LedgerFileError.message : LedgerFileError → String
  | json => "json"

namespace Ledger

/-- Reads a ledger from either of its two shapes. -/
def ofJson? : Reader (List Record)
  | .object members =>
    match members.filter fun member => member.1.text? == some "entries" with
    | [(_, .array items)] => items.mapM Record.ofJson?
    | _ => none
  | value => value.list? Record.ofJson?

/-- A ledger as it is written. -/
def toJson (records : List Record) : Value :=
  .ofMembers [("entries", .array (records.map Record.toJson))]

/-- Reads the text of a ledger file. -/
def parse? (text : String) : Option (List Record) :=
  (Value.ofLimitedText? text).bind ofJson?

/-- Reads the text of a ledger file, or says that it is none. -/
def ofFileText (text : String) : Except LedgerFileError (List Record) :=
  match parse? text with
  | some records => .ok records
  | none => .error .json

/-- The text of a ledger file. -/
def text (records : List Record) : String := (toJson records).prettyText

end Ledger

end LatticeLedger
