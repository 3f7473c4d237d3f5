import LatticeLedger.Contract
import LatticeLedger.Guard.Basic
import LatticeLedger.Requirement

/-!
# Ledger records

A ledger is a list of records in the loose shape in which they are logged: every field may be
absent. A record contract says which of them a record needs. A committed step carries the full
address it was guarded to, so that it can be checked again later; a closing is tied to its step
by the step's position and, if known, its id; a checkpoint carries a position alone.
-/

namespace LatticeLedger

/-- The kind of a step. -/
def stepKind : String := "ace_step"

/-- The kind of the closing that every step needs by default. -/
def closingKind : String := "petc"

/-- The kind of a checkpoint. -/
def checkpointKind : String := "audit"

/-- The status of a step that counts. -/
def committedStatus : String := "committed"

/-- The note under which a step context names the step it belongs to. -/
def stepLink : String := "ace"

/-- The longest kind or status, in bytes. -/
def kindLimit : Nat := 64

/-- The longest entry id, in bytes. -/
def entryIdLimit : Nat := 128

/-- The context of a record, as logged. -/
structure LoggedContext where
  classId : Option UInt32 := none
  coord : Option UInt32 := none
  anchor : Option UInt32 := none
  vBits : Option UInt32 := none
  row : Option UInt32 := none
  col : Option UInt32 := none
  /-- The id of the step to which a closing belongs. -/
  step : Option String := none
  deriving DecidableEq, Repr

namespace LoggedContext

/-- Whether a place within a class is named in full. -/
def hasCoordinates (context : LoggedContext) : Bool :=
  context.coord.isSome || (context.anchor.isSome && context.vBits.isSome)

/-- The step context from which a logged context may have come. -/
def stepContext (context : LoggedContext) (t : Option UInt64) : Except Refusal StepContext := do
  let classId ← demand (.incomplete .classId) context.classId
  let coordinates ← Coordinates.ofParts context.coord context.anchor context.vBits
  let metadata : OrderedMap String String :=
    match context.step with
    | some step => OrderedMap.empty.insert stepLink step
    | none => ∅
  return { classId, coordinates, t, metadata }

/-- The context under which a guarded step is logged: all six numbers of its address, and of
its notes only the link to a step. -/
def ofGuarded (guarded : GuardedStep) : LoggedContext where
  classId := some (UInt32.ofNat guarded.address.classId.val)
  coord := some (UInt32.ofNat guarded.address.coord.val)
  anchor := some (UInt32.ofNat guarded.address.anchor.val)
  vBits := some (UInt32.ofNat guarded.address.offset.val)
  row := some (UInt32.ofNat guarded.address.row.val)
  col := some (UInt32.ofNat guarded.address.col.val)
  step := guarded.metadata.get? stepLink

end LoggedContext

/-- How findings refer to a step: by its entry id, or else by its position. -/
inductive StepRef
  | entryId (id : String)
  | position (t : UInt64)
  deriving DecidableEq, Repr

/-- A reference to a step in words. -/
def StepRef.describe : StepRef → String
  | entryId id => id
  | position t => s!"t={t.toNat}"

/-- One record of a ledger, as logged. -/
structure Record where
  kind : Option String := none
  status : Option String := none
  entryId : Option String := none
  /-- The position to which the record belongs. -/
  t : Option UInt64 := none
  context : Option LoggedContext := none
  deriving DecidableEq, Repr

namespace Record

/-- Whether a record is a step that counts. -/
def isCommittedStep (record : Record) : Bool :=
  record.kind == some stepKind && record.status == some committedStatus

/-- The reference to a record, if it has an id or a position. -/
def stepRef? (record : Record) : Option StepRef :=
  match record.entryId, record.t with
  | some id, _ => some (.entryId id)
  | none, some t => some (.position t)
  | none, none => none

/-- The contract of a record: kind, entry id and status are tokens, the kind must be there,
a checkpoint needs a position, and every other record needs a context. -/
def check (record : Record) : Except Violation Unit := do
  let kind ← demand (.flawed "ledger_record.kind" .missing) record.kind
  checkToken "ledger_record.kind" kindLimit kind
  whenPresent (checkToken "ledger_record.entry_id" entryIdLimit) record.entryId
  whenPresent (checkToken "ledger_record.status" kindLimit) record.status
  require (kind = checkpointKind ∨ record.context.isSome)
    (.flawed "ledger_record.context" .contextMissing)
  require (kind = checkpointKind → record.t.isSome) (.flawed "ledger_record.t" .stepMissing)

/-- A record, provided that it keeps the contract. -/
def checked (record : Record) : Except Violation Record := do
  record.check
  return record

/-- The record of a committed step. -/
def committedStep (entryId : Option String) (t : UInt64) (guarded : GuardedStep) :
    Except Violation Record :=
  checked
    { kind := some stepKind
      status := some committedStatus
      entryId
      t := some t
      context := some (.ofGuarded guarded) }

/-- The record that closes a step, tied to it by position and, if known, by id. -/
def closing (kind : String) (t : UInt64) (step : Option String) : Except Violation Record :=
  checked { kind := some kind, t := some t, context := some { step } }

/-- The record of a checkpoint. -/
def checkpoint (t : UInt64) : Record := { kind := some checkpointKind, t := some t }

end Record

end LatticeLedger
