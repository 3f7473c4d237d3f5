import LatticeLedger.Audit.Config
import LatticeLedger.Toml.Reader

/-!
# Configuration files

A schedule file has a section `schedule`. An audit bundle has a section `policy`, a section
`intervals` for the steps between checkpoints, and may have a section `indexing` that repeats the
sizes of the lattice. Whatever is left out takes its default; what is there must have its type,
and the sizes must be those of the lattice.
-/

namespace LatticeLedger

open Toml

/-- Why a configuration text is not accepted. -/
inductive ConfigError
  /-- The text is not that of a configuration. -/
  | toml
  /-- A size of the lattice is declared with a value that it does not have. -/
  | indexing (field : String) (declared actual : Nat)
  /-- The values break a contract. -/
  | violation (broken : Violation)
  deriving DecidableEq, Repr

/-- The wording of a configuration error. -/
def ConfigError.message : ConfigError → String
  | toml => "toml"
  | indexing field declared actual =>
    s!"config indexing.{field}: declares {declared}, lattice has {actual}"
  | violation broken => broken.message

namespace Schedule

/-- Reads the section `schedule`. -/
def ofSection? : Toml.Reader Schedule := fun value => do
  let fields ← value.fields? ["window_size", "window_count", "audit_interval"]
  let standard : Schedule := {}
  return {
    windowSize := ← fields.defaulted "window_size" standard.windowSize Value.uint32?
    windowCount := ← fields.defaulted "window_count" standard.windowCount Value.uint32?
    auditInterval := ← fields.defaulted "audit_interval" standard.auditInterval Value.uint64? }

/-- Reads a schedule file. -/
def ofToml? : Toml.Reader Schedule := fun value => do
  let sections ← value.fields? ["schedule"]
  sections.defaulted "schedule" {} ofSection?

/-- Reads the text of a schedule file, provided that the schedule keeps its contract. -/
def ofFileText (text : String) : Except ConfigError Schedule :=
  match (Toml.parse? text).bind ofToml? with
  | none => .error .toml
  | some schedule => schedule.checked.mapError .violation

end Schedule

/-- The sizes of the lattice that a bundle declares. -/
structure Indexing where
  classes : Option UInt32 := none
  anchors : Option UInt32 := none
  deriving DecidableEq, Repr

namespace Indexing

/-- Reads the section `indexing`. As an array it needs both of its fields. -/
def ofSection? : Toml.Reader Indexing := fun value => do
  let layout := ["classes", "anchors"]
  guard (value.items?.all fun items => layout.length ≤ items.length)
  let fields ← value.fields? layout
  return {
    classes := ← fields.optional "classes" Value.uint32?
    anchors := ← fields.optional "anchors" Value.uint32? }

/-- Compares a declared size with the actual one. -/
def checkSize (field : String) (declared : Option UInt32) (actual : Nat) :
    Except ConfigError Unit :=
  whenPresent
    (fun size => require (size.toNat = actual) (.indexing field size.toNat actual)) declared

/-- Compares the declared sizes with those of the lattice, classes first. -/
def check (indexing : Indexing) : Except ConfigError Unit := do
  checkSize "classes" indexing.classes classCount
  checkSize "anchors" indexing.anchors anchorCount

end Indexing

/-- What an audit bundle says. -/
structure Bundle where
  policy : Policy := {}
  indexing : Indexing := {}
  deriving DecidableEq, Repr

namespace Bundle

/-- Reads the section `policy`; the steps between checkpoints are not part of it. -/
def policyOfSection? (auditEvery : UInt64) : Toml.Reader Policy := fun value => do
  let fields ← value.fields? ["class_skew_tolerance", "anchor_skew_tolerance", "per_step_kinds"]
  let standard : Policy := {}
  return {
    classSkewTolerance :=
      ← fields.defaulted "class_skew_tolerance" standard.classSkewTolerance Value.uint64?
    anchorSkewTolerance :=
      ← fields.defaulted "anchor_skew_tolerance" standard.anchorSkewTolerance Value.uint64?
    auditEvery
    perStepKinds :=
      ← fields.defaulted "per_step_kinds" standard.perStepKinds fun kinds =>
        (kinds.list? Value.text?).map OrderedSet.ofList }

/-- Reads the section `intervals`. -/
def auditEveryOfSection? : Toml.Reader UInt64 := fun value => do
  let fields ← value.fields? ["audit_every"]
  let standard : Policy := {}
  fields.defaulted "audit_every" standard.auditEvery Value.uint64?

/-- Reads an audit bundle. -/
def ofToml? : Toml.Reader Bundle := fun value => do
  let sections ← value.fields? ["policy", "intervals", "indexing"]
  let standard : Policy := {}
  let auditEvery ← sections.defaulted "intervals" standard.auditEvery auditEveryOfSection?
  let policy ←
    sections.defaulted "policy" { standard with auditEvery } (policyOfSection? auditEvery)
  let indexing ← sections.defaulted "indexing" {} Indexing.ofSection?
  return { policy, indexing }

/-- The policy of a bundle, provided that the declared sizes are right and the policy keeps its
contract. -/
def policyChecked (bundle : Bundle) : Except ConfigError Policy := do
  bundle.indexing.check
  bundle.policy.checked.mapError .violation

end Bundle

/-- Reads the text of an audit bundle. The whole text is read before any value is checked. -/
def Policy.ofFileText (text : String) : Except ConfigError Policy :=
  match (Toml.parse? text).bind Bundle.ofToml? with
  | none => .error .toml
  | some bundle => bundle.policyChecked

end LatticeLedger
