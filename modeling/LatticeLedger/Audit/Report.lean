import LatticeLedger.Audit.Config

/-!
# Audit reports

A report counts how often every class and anchor was visited, names the classes and anchors
at the ends of an uneven count, and lists the steps that lack a closing.
-/

namespace LatticeLedger

/-- How often each number occurs. -/
abbrev Tally := OrderedMap UInt32 Nat

namespace Tally

/-- How often a tally has counted a number. -/
def count (tally : Tally) (key : UInt32) : Nat := (tally.get? key).getD 0

/-- Counts a number once more. -/
def add (tally : Tally) (key : UInt32) : Tally := tally.insert key (tally.count key + 1)

/-- The highest count, or zero if nothing is counted. -/
def highest (tally : Tally) : Nat := tally.values.max?.getD 0

/-- The lowest count, or zero if nothing is counted. -/
def lowest (tally : Tally) : Nat := tally.values.min?.getD 0

/-- By how much two counts differ at most. -/
def skew (tally : Tally) : Nat := tally.highest - tally.lowest

/-- The numbers whose count is the highest or the lowest, ascending. -/
def extremes (tally : Tally) : List UInt32 :=
  (tally.toList.filter fun entry => entry.2 == tally.highest || entry.2 == tally.lowest).map (·.1)

/-- The numbers to blame for a skew above the tolerance. -/
def culprits (tally : Tally) (tolerance : Nat) : List UInt32 :=
  if tally.skew ≤ tolerance then [] else tally.extremes

end Tally

/-- The closings that one step lacks. -/
structure MissingKinds where
  step : StepRef
  kinds : List String
  deriving DecidableEq, Repr

/-- What an audit found. -/
structure Report where
  /-- The number of committed steps. -/
  totalSteps : Nat
  classDistribution : Tally
  anchorDistribution : Tally
  classSkew : Nat
  anchorSkew : Nat
  fairClasses : Bool
  fairAnchors : Bool
  /-- The most and least visited classes, if the classes are not visited fairly. -/
  badClasses : List UInt32
  badAnchors : List UInt32
  /-- The steps that lack a closing. -/
  missing : List StepRef
  /-- The same steps with the kinds of closing that they lack. -/
  missingKinds : List MissingKinds
  /-- The number of checkpoints. -/
  auditEntries : Nat
  auditCompliance : Bool
  /-- The number of distinct coordinates of committed steps. -/
  coordsVisited : Nat
  scheduledCoords : Nat
  coverageComplete : Bool
  deriving DecidableEq, Repr

/-- Whether the run is fair, checked often enough, and complete in its closings. Coverage has no
say in it. -/
def Report.allOk (report : Report) : Bool :=
  report.fairClasses && report.fairAnchors && report.auditCompliance && report.missing.isEmpty

end LatticeLedger
