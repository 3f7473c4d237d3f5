import LatticeLedger.Audit.Report

/-!
# Reading a ledger for an audit

An audit does not trust what was logged. Every record is held to its contract again, the place
of every committed step is guarded again, and a record that fails stops the audit: a report on
part of a ledger could misstate its fairness. What remains of a record is an `Entry`.
-/

namespace LatticeLedger

/-- Why a record cannot be audited. -/
inductive RecordFault
  /-- The record breaks its contract. -/
  | violation (broken : Violation)
  /-- The policy does not know the record's kind. -/
  | unknownKind (kind : String)
  /-- A committed step has no context. -/
  | noContext
  /-- The place of a step is refused. -/
  | refused (refusal : Refusal)
  /-- The logged cell is not the cell of the logged coordinate. -/
  | wrongCell
  /-- The context of a step names no class. -/
  | noClass
  /-- The context of a step names neither a coordinate nor an anchor. -/
  | noPlace
  /-- A committed step has neither an id nor a position. -/
  | unidentified
  deriving DecidableEq, Repr

/-- The wording of a fault. -/
def RecordFault.message : RecordFault → String
  | violation broken => broken.message
  | unknownKind kind => "unrecognized kind '" ++ kind ++ "'"
  | noContext => "committed step without context"
  | refused refusal => refusal.message
  | wrongCell => "logged row/col disagree with coord fold"
  | noClass => Gap.classId.message
  | noPlace => "context lacks both coord and anchor"
  | unidentified => "committed step needs entry_id or t"

/-- Why there is no report. -/
inductive AuditError
  /-- The schedule or the policy breaks its contract. -/
  | violation (broken : Violation)
  /-- The record at `index` cannot be audited. -/
  | record (index : Nat) (fault : RecordFault)
  deriving DecidableEq, Repr

/-- The wording of an audit error. -/
def AuditError.message : AuditError → String
  | violation broken => broken.message
  | record index fault => s!"ledger entry {index}: " ++ fault.message

/-- Where a step counts: in a class, at an anchor, and at a coordinate if one was logged. -/
structure Cell where
  classId : ClassId
  anchor : Anchor
  coord : Option Coord
  deriving DecidableEq, Repr

namespace LoggedContext

/-- Whether a logged row and column are those of an address. They are compared only if both are
present. -/
def cellAgrees (context : LoggedContext) (address : Address) : Bool :=
  match context.row, context.col with
  | some row, some col => row.toNat == address.row.val && col.toNat == address.col.val
  | _, _ => true

/-- The cell of a context with coordinates, which are guarded again. -/
def guardedCell (context : LoggedContext) (t : Option UInt64) : Except RecordFault Cell := do
  let step ← (context.stepContext t).mapError .refused
  let address ← (guardAddress step.classId step.coordinates).mapError .refused
  require (context.cellAgrees address) .wrongCell
  return ⟨address.classId, address.anchor, some address.coord⟩

/-- The cell of a context without coordinates: its class and its anchor, each in its range. -/
def anchorCell (context : LoggedContext) : Except RecordFault Cell := do
  let classId ← demand .noClass context.classId
  let anchor ← demand .noPlace context.anchor
  let classId ← (checkBelow .classId classCount classId.toNat).mapError .refused
  let anchor ← (checkBelow .anchor anchorCount anchor.toNat).mapError .refused
  return ⟨classId, anchor, none⟩

/-- The cell of a logged context. -/
def cell (context : LoggedContext) (t : Option UInt64) : Except RecordFault Cell :=
  if context.hasCoordinates then context.guardedCell t else context.anchorCell

end LoggedContext

/-- A committed step as an audit sees it. -/
structure AuditedStep where
  ref : StepRef
  t : Option UInt64
  entryId : Option String
  cell : Cell
  deriving DecidableEq, Repr

/-- A closing as an audit sees it: its kind, and the two ways in which it may name its step. -/
structure Closing where
  kind : String
  t : Option UInt64
  step : Option String
  deriving DecidableEq, Repr

/-- What a record contributes to an audit. -/
inductive Entry
  | step (step : AuditedStep)
  | checkpoint (t : UInt64)
  | closing (closing : Closing)
  /-- Records that no part of the report depends on. -/
  | other
  deriving DecidableEq, Repr

namespace Record

/-- The step that a committed record logs. It has a context if the record keeps its contract. -/
def auditedStep (record : Record) : Except RecordFault AuditedStep := do
  let context ← demand .noContext record.context
  let cell ← context.cell record.t
  let ref ← demand .unidentified record.stepRef?
  return ⟨ref, record.t, record.entryId, cell⟩

/-- The entry of a record of the given kind that keeps its contract. -/
def entryOfKind (record : Record) (policy : Policy) (kind : String) : Except RecordFault Entry :=
  if kind = checkpointKind then .ok ((record.t.map .checkpoint).getD .other)
  else if record.isCommittedStep then record.auditedStep.map .step
  else if policy.perStepKinds.contains kind then
    .ok (.closing ⟨kind, record.t, record.context.bind (·.step)⟩)
  else .ok .other

/-- The entry of a record. The contract comes first, then the kind, then the place of a step. -/
def entry (record : Record) (policy : Policy) : Except RecordFault Entry := do
  record.check.mapError .violation
  let kind := record.kind.getD ""
  require (policy.recognizes kind) (.unknownKind kind)
  record.entryOfKind policy kind

end Record

end LatticeLedger
