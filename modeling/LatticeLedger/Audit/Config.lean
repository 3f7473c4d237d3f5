import LatticeLedger.Lattice.Basic
import LatticeLedger.Ledger.Record
import LatticeLedger.Ordered.Set

/-!
# Schedule and policy

A schedule says how many coordinates a run means to visit in each class and how often it means
to be checked. A policy says how uneven a run may be, which closings every step needs, and may
overrule the schedule's interval.
-/

namespace LatticeLedger

/-- The windows of a run and the steps between its checkpoints. -/
structure Schedule where
  windowSize : UInt32 := 768
  windowCount : UInt32 := 16
  auditInterval : UInt64 := 768
  deriving DecidableEq, Repr

namespace Schedule

/-- The coordinates that a run means to visit in each class. -/
def coords (schedule : Schedule) : Nat := schedule.windowSize.toNat * schedule.windowCount.toNat

/-- The contract of a schedule: there are windows, they are not empty, and together they do not
exceed the coordinates of a class. -/
def check (schedule : Schedule) : Except Violation Unit := do
  require (0 < schedule.windowSize) (.flawed "schedule_config.window_size" .notPositive)
  require (0 < schedule.windowCount) (.flawed "schedule_config.window_count" .notPositive)
  require (schedule.coords ≤ coordCount)
    (.outside "schedule_config.window_size*window_count" 1 coordCount schedule.coords)

/-- A schedule, provided that it keeps the contract. -/
def checked (schedule : Schedule) : Except Violation Schedule := do
  schedule.check
  return schedule

end Schedule

/-- What an audit asks of a run. -/
structure Policy where
  /-- By how much the visits of two classes may differ. -/
  classSkewTolerance : UInt64 := 1
  /-- By how much the visits of two anchors may differ. -/
  anchorSkewTolerance : UInt64 := 1
  /-- The steps between checkpoints; zero leaves them to the schedule. -/
  auditEvery : UInt64 := 768
  /-- The kinds of closing that every step needs. -/
  perStepKinds : OrderedSet String := .ofList [closingKind]
  deriving DecidableEq, Repr

namespace Policy

/-- The contract of a policy: every kind of closing is a token, and none is the kind of a step
or of a checkpoint. -/
def check (policy : Policy) : Except Violation Unit :=
  policy.perStepKinds.toList.forM fun kind => do
    checkToken "audit_policy.per_step_kinds" kindLimit kind
    require (kind ≠ stepKind ∧ kind ≠ checkpointKind)
      (.flawed "audit_policy.per_step_kinds" .reservedKind)

/-- A policy, provided that it keeps the contract. -/
def checked (policy : Policy) : Except Violation Policy := do
  policy.check
  return policy

/-- The interval in force: the policy's own, or else the schedule's. Zero asks for nothing. -/
def interval (policy : Policy) (schedule : Schedule) : UInt64 :=
  if 0 < policy.auditEvery then policy.auditEvery else schedule.auditInterval

/-- Whether records of a kind may occur. The three standard kinds always may. -/
def recognizes (policy : Policy) (kind : String) : Bool :=
  kind == stepKind || kind == closingKind || kind == checkpointKind ||
    policy.perStepKinds.contains kind

end Policy

end LatticeLedger
