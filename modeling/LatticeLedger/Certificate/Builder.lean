import LatticeLedger.Certificate.File

/-!
# Building certificates

A builder chooses the anchors to certify and the Gray indices to sample in each orbit. Nothing goes
into a certificate that has not been checked on the way.
-/

namespace LatticeLedger

open Symmetry

/-- Why there is no certificate. -/
inductive CertificateError
  /-- A chosen number is out of range. -/
  | refused (refusal : Refusal)
  /-- A check of the symmetry fails. -/
  | fault (fault : Fault)
  deriving DecidableEq, Repr

/-- The wording of a certificate error. -/
def CertificateError.message : CertificateError → String
  | refused refusal => refusal.message
  | fault found => found.message

/-- The Gray indices that are sampled unless others are chosen: both ends of the walk, and the
step at which the last generator comes in. -/
def standardSamples : List (Fin orbitSize) :=
  [⟨0, by decide⟩, ⟨1, by decide⟩, ⟨2, by decide⟩, ⟨3, by decide⟩, ⟨1024, by decide⟩,
    ⟨2047, by decide⟩]

/-- What a certificate is to contain. -/
structure CertificateBuilder where
  /-- The certified anchors, ascending and each once. -/
  anchors : List Anchor := List.finRange anchorCount
  /-- The sampled Gray indices, in any order. -/
  samples : List (Fin orbitSize) := standardSamples
  deriving DecidableEq, Repr

namespace CertificateBuilder

/-- Chooses the anchors. The first number that is no anchor is reported; at least one anchor must
be chosen. -/
def withAnchors (builder : CertificateBuilder) (anchors : List Nat) :
    Except CertificateError CertificateBuilder := do
  let chosen : List Anchor ←
    (anchors.mapM (checkBelow .anchor anchorCount)).mapError .refused
  require (¬chosen.isEmpty) (.fault .noAnchors)
  return { builder with anchors := (List.finRange anchorCount).filter (chosen.contains ·) }

/-- Chooses the Gray indices. The first number that is none is reported. -/
def withSamples (builder : CertificateBuilder) (indices : List Nat) :
    Except CertificateError CertificateBuilder := do
  let samples ← (indices.mapM (checkBelow .vBits orbitSize)).mapError .refused
  return { builder with samples }

/-- The samples of one orbit, in the order of the walk. -/
def samplesOf (builder : CertificateBuilder) (anchor : Anchor) : Except Fault (List OrbitSample) :=
  let wanted := (walkFrom anchor).steps.filter fun step =>
    builder.samples.any fun index => index.val == step.index
  wanted.mapM fun step => do
    let folded ← checkStep anchor step
    return {
      anchor := UInt8.ofNat anchor.val
      grayIndex := UInt16.ofNat step.index
      grayCode := UInt16.ofNat step.code
      walked := step.point
      folded }

/-- The base of an anchor as a certificate gives it. -/
def positionOf (anchor : Anchor) : AnchorPosition where
  anchor := UInt8.ofNat anchor.val
  row := (base anchor).row
  col := (base anchor).col

/-- The body of the certificate, once every check has passed. -/
def body (builder : CertificateBuilder) : Except Fault CertificateBody := do
  checkLaws builder.anchors
  let samples ← builder.anchors.mapM builder.samplesOf
  return {
    certificateType := "Z2_11_subgroup_certificate"
    schemaVersion := 1
    description :=
      "(Z/2)^11 acting on (row, col) by bit flips: 8 on col, 3 on the low bits of row mod 16"
    classes := UInt32.ofNat classCount
    anchors := UInt32.ofNat builder.anchors.length
    orbitSize := UInt32.ofNat orbitSize
    coordsPerClass := UInt32.ofNat coordCount
    foldRows := UInt32.ofNat rowCount
    foldCols := UInt32.ofNat colCount
    order := UInt32.ofNat groupOrder
    rank := UInt32.ofNat orbitRank
    generators := Generator.all.map GeneratorEntry.ofGenerator
    anchorPositions := builder.anchors.map positionOf
    orbitSamples := samples.flatten }

/-- The certificate: the body with its checksum. -/
def build (builder : CertificateBuilder) : Except CertificateError Certificate := do
  let body ← builder.body.mapError .fault
  return { body with checksum := body.computeChecksum }

end CertificateBuilder

/-- The certificate of all anchors with the standard samples. -/
def standardCertificate : Except CertificateError Certificate := CertificateBuilder.build {}

end LatticeLedger
