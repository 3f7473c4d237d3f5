import LatticeLedger.Audit.Report
import LatticeLedger.Ledger.File

/-!
# Schedules, policies and reports as JSON

Fields of a schedule or a policy that are left out take their defaults. A report is written with
every field; in it, a reference to a step is a string if it is an entry id and a number if it is
a position, so the two are never confused, and a tally is an object whose names are the numbers
counted.
-/

namespace LatticeLedger

open Json

namespace Schedule

/-- The fields of a schedule. -/
def layout : List FieldName :=
  [{ name := "window_size" }, { name := "window_count" }, { name := "audit_interval" }]

/-- Reads a schedule. -/
def ofJson? : Reader Schedule := fun value => do
  let fields ← value.fields? layout
  let standard : Schedule := {}
  return {
    windowSize := ← fields.defaulted "window_size" standard.windowSize Value.uint32?
    windowCount := ← fields.defaulted "window_count" standard.windowCount Value.uint32?
    auditInterval := ← fields.defaulted "audit_interval" standard.auditInterval Value.uint64? }

/-- A schedule as it is written. -/
def toJson (schedule : Schedule) : Value :=
  .ofMembers
    [("window_size", .ofNat schedule.windowSize.toNat),
      ("window_count", .ofNat schedule.windowCount.toNat),
      ("audit_interval", .ofNat schedule.auditInterval.toNat)]

end Schedule

namespace Policy

/-- The fields of a policy. -/
def layout : List FieldName :=
  [{ name := "class_skew_tolerance" }, { name := "anchor_skew_tolerance" },
    { name := "audit_every" }, { name := "per_step_kinds" }]

/-- Reads a policy. -/
def ofJson? : Reader Policy := fun value => do
  let fields ← value.fields? layout
  let standard : Policy := {}
  return {
    classSkewTolerance :=
      ← fields.defaulted "class_skew_tolerance" standard.classSkewTolerance Value.uint64?
    anchorSkewTolerance :=
      ← fields.defaulted "anchor_skew_tolerance" standard.anchorSkewTolerance Value.uint64?
    auditEvery := ← fields.defaulted "audit_every" standard.auditEvery Value.uint64?
    perStepKinds :=
      ← fields.defaulted "per_step_kinds" standard.perStepKinds fun kinds =>
        (kinds.list? Value.text?).map OrderedSet.ofList }

/-- A policy as it is written. -/
def toJson (policy : Policy) : Value :=
  .ofMembers
    [("class_skew_tolerance", .ofNat policy.classSkewTolerance.toNat),
      ("anchor_skew_tolerance", .ofNat policy.anchorSkewTolerance.toNat),
      ("audit_every", .ofNat policy.auditEvery.toNat),
      ("per_step_kinds", .array (policy.perStepKinds.toList.map Value.ofString))]

end Policy

namespace StepRef

/-- Reads a reference to a step. -/
def ofJson? : Reader StepRef
  | .string body => body.text?.map entryId
  | value => value.uint64?.map position

/-- A reference to a step as it is written. -/
def toJson : StepRef → Value
  | entryId id => .ofString id
  | position t => .ofNat t.toNat

end StepRef

namespace MissingKinds

/-- The fields of an entry on missing closings. -/
def layout : List FieldName := [{ name := "step" }, { name := "kinds" }]

/-- Reads an entry on missing closings. -/
def ofJson? : Reader MissingKinds := fun value => do
  let fields ← value.fields? layout
  return {
    step := ← fields.required "step" StepRef.ofJson?
    kinds := ← fields.required "kinds" (Value.list? Value.text?) }

/-- An entry on missing closings as it is written. -/
def toJson (missing : MissingKinds) : Value :=
  .ofMembers
    [("step", missing.step.toJson), ("kinds", .array (missing.kinds.map Value.ofString))]

end MissingKinds

/-- A tally as it is written. -/
def Tally.toJson (tally : Tally) : Value :=
  .object (tally.toList.map fun (key, count) =>
    ((Nat.toDigits 10 key.toNat).map Piece.plain, .ofNat count))

namespace Report

/-- The fields of a report. -/
def layout : List FieldName :=
  ["total_steps", "class_distribution", "anchor_distribution", "class_skew", "anchor_skew",
    "fair_classes_ok", "fair_anchors_ok", "bad_classes", "bad_anchors", "missing_petc",
    "missing_kinds", "audit_entries", "audit_compliance_ok", "coords_visited", "scheduled_coords",
    "coverage_complete"].map fun name => { name }

/-- Reads a report. -/
def ofJson? : Reader Report := fun value => do
  let fields ← value.fields? layout
  return {
    totalSteps := ← fields.required "total_steps" Value.count?
    classDistribution := ← fields.required "class_distribution" (Value.map? Value.count?)
    anchorDistribution := ← fields.required "anchor_distribution" (Value.map? Value.count?)
    classSkew := ← fields.required "class_skew" Value.count?
    anchorSkew := ← fields.required "anchor_skew" Value.count?
    fairClasses := ← fields.required "fair_classes_ok" Value.bool?
    fairAnchors := ← fields.required "fair_anchors_ok" Value.bool?
    badClasses := ← fields.required "bad_classes" (Value.list? Value.uint32?)
    badAnchors := ← fields.required "bad_anchors" (Value.list? Value.uint32?)
    missing := ← fields.required "missing_petc" (Value.list? StepRef.ofJson?)
    missingKinds := ← fields.required "missing_kinds" (Value.list? MissingKinds.ofJson?)
    auditEntries := ← fields.required "audit_entries" Value.count?
    auditCompliance := ← fields.required "audit_compliance_ok" Value.bool?
    coordsVisited := ← fields.required "coords_visited" Value.count?
    scheduledCoords := ← fields.required "scheduled_coords" Value.count?
    coverageComplete := ← fields.required "coverage_complete" Value.bool? }

/-- A report as it is written. -/
def toJson (report : Report) : Value :=
  let words (list : List UInt32) := Value.array (list.map fun n => .ofNat n.toNat)
  .ofMembers
    [("total_steps", .ofNat report.totalSteps),
      ("class_distribution", report.classDistribution.toJson),
      ("anchor_distribution", report.anchorDistribution.toJson),
      ("class_skew", .ofNat report.classSkew), ("anchor_skew", .ofNat report.anchorSkew),
      ("fair_classes_ok", .bool report.fairClasses), ("fair_anchors_ok", .bool report.fairAnchors),
      ("bad_classes", words report.badClasses), ("bad_anchors", words report.badAnchors),
      ("missing_petc", .array (report.missing.map StepRef.toJson)),
      ("missing_kinds", .array (report.missingKinds.map MissingKinds.toJson)),
      ("audit_entries", .ofNat report.auditEntries),
      ("audit_compliance_ok", .bool report.auditCompliance),
      ("coords_visited", .ofNat report.coordsVisited),
      ("scheduled_coords", .ofNat report.scheduledCoords),
      ("coverage_complete", .bool report.coverageComplete)]

/-- Reads the text of a report. -/
def parse? (text : String) : Option Report := (Value.ofText? text).bind ofJson?

/-- The text of a report. -/
def text (report : Report) : String := report.toJson.prettyText

end Report

end LatticeLedger
