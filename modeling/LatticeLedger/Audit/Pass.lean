import LatticeLedger.Audit.Entry

/-!
# The pass over a ledger

An audit goes over its ledger once and gathers what the report is made from: how often each class
and each anchor was visited, which coordinates were, the committed steps and the checkpoints in
their order, and an index of the closings. Whether a step has its closings is only asked afterwards,
since they may stand anywhere.
-/

namespace LatticeLedger

/-- Closings by their kind: the positions that closings of a kind carry, and the ids of the steps
that they name. -/
structure LinkIndex where
  byPosition : OrderedMap String (OrderedSet UInt64) := ∅
  byStep : OrderedMap String (OrderedSet String) := ∅
  deriving DecidableEq, Repr

namespace LinkIndex

/-- Enters a closing under its position and under the id of its step, as far as they are there. -/
def insert (index : LinkIndex) (closing : Closing) : LinkIndex where
  byPosition := index.byPosition.note closing.kind closing.t
  byStep := index.byStep.note closing.kind closing.step

/-- Whether a closing of the kind was entered under the position or the id of a step. -/
def has (index : LinkIndex) (kind : String) (step : AuditedStep) : Bool :=
  index.byPosition.notes kind step.t || index.byStep.notes kind step.entryId

end LinkIndex

/-- What an audit has gathered from the records that it has read. -/
structure AuditPass where
  classes : Tally := ∅
  anchors : Tally := ∅
  /-- The coordinates of committed steps. -/
  visited : OrderedSet Nat := ∅
  committed : Array AuditedStep := #[]
  links : LinkIndex := {}
  /-- The positions of the checkpoints. -/
  checkpoints : Array UInt64 := #[]
  deriving DecidableEq, Repr

namespace AuditPass

/-- Counts a committed step, at its coordinate only if it has one. -/
def count (pass : AuditPass) (step : AuditedStep) : AuditPass :=
  { pass with
    classes := pass.classes.add (UInt32.ofNat step.cell.classId.val)
    anchors := pass.anchors.add (UInt32.ofNat step.cell.anchor.val)
    visited :=
      match step.cell.coord with
      | some coord => pass.visited.insert coord.val
      | none => pass.visited
    committed := pass.committed.push step }

/-- Takes the entry of the next record into account. -/
def take (pass : AuditPass) : Entry → AuditPass
  | .step step => pass.count step
  | .checkpoint t => { pass with checkpoints := pass.checkpoints.push t }
  | .closing closing => { pass with links := pass.links.insert closing }
  | .other => pass

/-- Goes over the records that stand from `index` on; the first fault ends the pass. -/
def run (policy : Policy) (index : Nat) (pass : AuditPass) :
    List Record → Except AuditError AuditPass
  | [] => .ok pass
  | record :: rest => do
    let entry ← (record.entry policy).mapError (.record index)
    run policy (index + 1) (pass.take entry) rest

end AuditPass

end LatticeLedger
