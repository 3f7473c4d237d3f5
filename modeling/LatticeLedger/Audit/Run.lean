import LatticeLedger.Audit.Pass

/-!
# The audit

An audit reads a ledger against a schedule and a policy. It asks whether classes and anchors
were visited evenly, whether every step has its closings, wherever in the ledger they stand,
and whether checkpoints were never too far apart.
-/

namespace LatticeLedger

/-- Whether no two neighbours in `last`, the positions, and the end are too far apart. -/
def spaced (interval total : Nat) : Nat → List Nat → Bool
  | last, [] => total - last ≤ interval
  | last, position :: rest => position - last ≤ interval && spaced interval total position rest

/-- Whether no stretch of more than `interval` steps, from the start to `total`, is without a
checkpoint. Order, repetitions and checkpoints after the end do not matter. -/
def checkpointsCover (checkpoints : List Nat) (total interval : Nat) : Bool :=
  interval == 0 ||
    spaced interval total 0
      (OrderedSet.ofList (checkpoints.filter fun position => position ≤ total)).toList

/-- The steps that lack a closing, each with the kinds that it lacks. -/
def AuditPass.missing (policy : Policy) (pass : AuditPass) : List MissingKinds :=
  pass.committed.toList.filterMap fun step =>
    let kinds := policy.perStepKinds.toList.filter fun kind => !pass.links.has kind step
    if kinds.isEmpty then none else some ⟨step.ref, kinds⟩

/-- The report on what a pass has gathered. -/
def AuditPass.report (schedule : Schedule) (policy : Policy) (pass : AuditPass) : Report :=
  let missing := pass.missing policy
  { totalSteps := pass.committed.size
    classDistribution := pass.classes
    anchorDistribution := pass.anchors
    classSkew := pass.classes.skew
    anchorSkew := pass.anchors.skew
    fairClasses := pass.classes.skew ≤ policy.classSkewTolerance.toNat
    fairAnchors := pass.anchors.skew ≤ policy.anchorSkewTolerance.toNat
    badClasses := pass.classes.culprits policy.classSkewTolerance.toNat
    badAnchors := pass.anchors.culprits policy.anchorSkewTolerance.toNat
    missing := missing.map (·.step)
    missingKinds := missing
    auditEntries := pass.checkpoints.size
    auditCompliance :=
      checkpointsCover (pass.checkpoints.toList.map (·.toNat)) pass.committed.size
        (policy.interval schedule).toNat
    coordsVisited := pass.visited.size
    scheduledCoords := schedule.coords
    coverageComplete := schedule.coords ≤ pass.visited.size }

/-- Audits a ledger. The schedule is checked first, then the policy, then the records in one pass
over them. -/
def audit (ledger : List Record) (schedule : Schedule) (policy : Policy) :
    Except AuditError Report := do
  schedule.check.mapError .violation
  policy.check.mapError .violation
  let pass ← AuditPass.run policy 0 {} ledger
  return pass.report schedule policy

end LatticeLedger
