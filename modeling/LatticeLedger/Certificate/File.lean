import LatticeLedger.Certificate.Basic
import LatticeLedger.Json.Reader
import LatticeLedger.Sha256

/-!
# Certificate files

A certificate is a JSON object with all of its fields. The checksum is the SHA-256 hash of the
body's compact text; a file whose recorded checksum is another is refused.
-/

namespace LatticeLedger

open Json Symmetry

/-- The written name of a target. -/
def Symmetry.Target.name : Target → String
  | .column => "column"
  | .rowResidue => "row_residue16"

/-- The target of a written name. -/
def Symmetry.Target.ofName? (text : String) : Option Target :=
  [Target.column, .rowResidue].find? fun target => target.name == text

namespace GridPoint

/-- The fields of a grid point. -/
def layout : List FieldName := [{ name := "row" }, { name := "col" }]

/-- Reads a grid point. -/
def ofJson? : Reader GridPoint := fun value => do
  let fields ← value.fields? layout
  return {
    row := ← fields.required "row" Value.uint8?
    col := ← fields.required "col" Value.uint8? }

/-- A grid point as it is written. -/
def toJson (point : GridPoint) : Value :=
  .ofMembers [("row", .ofNat point.row.toNat), ("col", .ofNat point.col.toNat)]

end GridPoint

namespace GeneratorEntry

/-- The fields of a generator. -/
def layout : List FieldName :=
  [{ name := "index" }, { name := "target" }, { name := "bit" }, { name := "description" }]

/-- Reads a generator. -/
def ofJson? : Reader GeneratorEntry := fun value => do
  let fields ← value.fields? layout
  return {
    index := ← fields.required "index" Value.uint8?
    target := ← fields.required "target" (Value.choice? Target.ofName?)
    bit := ← fields.required "bit" Value.uint8?
    description := ← fields.required "description" Value.text? }

/-- A generator as it is written. -/
def toJson (entry : GeneratorEntry) : Value :=
  .ofMembers
    [("index", .ofNat entry.index.toNat), ("target", .ofString entry.target.name),
      ("bit", .ofNat entry.bit.toNat), ("description", .ofString entry.description)]

end GeneratorEntry

namespace AnchorPosition

/-- The fields of an anchor's base. -/
def layout : List FieldName := [{ name := "anchor" }, { name := "row" }, { name := "col" }]

/-- Reads an anchor's base. -/
def ofJson? : Reader AnchorPosition := fun value => do
  let fields ← value.fields? layout
  return {
    anchor := ← fields.required "anchor" Value.uint8?
    row := ← fields.required "row" Value.uint8?
    col := ← fields.required "col" Value.uint8? }

/-- An anchor's base as it is written. -/
def toJson (position : AnchorPosition) : Value :=
  .ofMembers
    [("anchor", .ofNat position.anchor.toNat), ("row", .ofNat position.row.toNat),
      ("col", .ofNat position.col.toNat)]

end AnchorPosition

namespace OrbitSample

/-- The fields of a sample. -/
def layout : List FieldName :=
  [{ name := "anchor" }, { name := "gray_index" }, { name := "gray_code" }, { name := "walked" },
    { name := "folded" }]

/-- Reads a sample. -/
def ofJson? : Reader OrbitSample := fun value => do
  let fields ← value.fields? layout
  return {
    anchor := ← fields.required "anchor" Value.uint8?
    grayIndex := ← fields.required "gray_index" Value.uint16?
    grayCode := ← fields.required "gray_code" Value.uint16?
    walked := ← fields.required "walked" GridPoint.ofJson?
    folded := ← fields.required "folded" GridPoint.ofJson? }

/-- A sample as it is written. -/
def toJson (sample : OrbitSample) : Value :=
  .ofMembers
    [("anchor", .ofNat sample.anchor.toNat), ("gray_index", .ofNat sample.grayIndex.toNat),
      ("gray_code", .ofNat sample.grayCode.toNat), ("walked", sample.walked.toJson),
      ("folded", sample.folded.toJson)]

end OrbitSample

namespace CertificateBody

/-- The members of a written body. -/
def members (body : CertificateBody) : List (String × Value) :=
  let word (n : UInt32) := Value.ofNat n.toNat
  [("type", .ofString body.certificateType), ("schema_version", word body.schemaVersion),
    ("description", .ofString body.description), ("classes", word body.classes),
    ("anchors", word body.anchors), ("orbit_size", word body.orbitSize),
    ("coords_per_class", word body.coordsPerClass), ("fold_rows", word body.foldRows),
    ("fold_cols", word body.foldCols), ("order", word body.order), ("rank", word body.rank),
    ("generators", .array (body.generators.map GeneratorEntry.toJson)),
    ("anchor_positions", .array (body.anchorPositions.map AnchorPosition.toJson)),
    ("orbit_samples", .array (body.orbitSamples.map OrbitSample.toJson))]

/-- The text of a body over which its checksum is taken. -/
def canonicalText (body : CertificateBody) : String := (Value.ofMembers body.members).compactText

/-- The checksum of a body. -/
def computeChecksum (body : CertificateBody) : String :=
  Sha256.hex (Sha256.digest body.canonicalText.toUTF8.toList)

end CertificateBody

/-- Why the text of a certificate file is not accepted. -/
inductive CertificateFileError
  /-- The text is not that of a certificate. -/
  | json
  /-- The recorded checksum is not that of the body. -/
  | checksumMismatch (recorded computed : String)
  deriving DecidableEq, Repr

/-- The wording of a certificate file error. -/
def CertificateFileError.message : CertificateFileError → String
  | json => "json"
  | checksumMismatch recorded computed =>
    s!"certificate checksum mismatch: recorded {recorded}, computed {computed}"

namespace Certificate

/-- Whether the recorded checksum is that of the body. -/
def verifyChecksum (certificate : Certificate) : Bool :=
  certificate.computeChecksum == certificate.checksum

/-- The fields of a certificate. -/
def layout : List FieldName :=
  ["type", "schema_version", "description", "classes", "anchors", "orbit_size",
    "coords_per_class", "fold_rows", "fold_cols", "order", "rank", "generators",
    "anchor_positions", "orbit_samples", "checksum"].map fun name => { name }

/-- Reads a certificate, whatever its checksum. -/
def ofJson? : Reader Certificate := fun value => do
  let fields ← value.fields? layout
  return {
    certificateType := ← fields.required "type" Value.text?
    schemaVersion := ← fields.required "schema_version" Value.uint32?
    description := ← fields.required "description" Value.text?
    classes := ← fields.required "classes" Value.uint32?
    anchors := ← fields.required "anchors" Value.uint32?
    orbitSize := ← fields.required "orbit_size" Value.uint32?
    coordsPerClass := ← fields.required "coords_per_class" Value.uint32?
    foldRows := ← fields.required "fold_rows" Value.uint32?
    foldCols := ← fields.required "fold_cols" Value.uint32?
    order := ← fields.required "order" Value.uint32?
    rank := ← fields.required "rank" Value.uint32?
    generators := ← fields.required "generators" (Value.list? GeneratorEntry.ofJson?)
    anchorPositions := ← fields.required "anchor_positions" (Value.list? AnchorPosition.ofJson?)
    orbitSamples := ← fields.required "orbit_samples" (Value.list? OrbitSample.ofJson?)
    checksum := ← fields.required "checksum" Value.text? }

/-- A certificate as it is written. -/
def toJson (certificate : Certificate) : Value :=
  .ofMembers (certificate.members ++ [("checksum", .ofString certificate.checksum)])

/-- The text of a certificate file. -/
def text (certificate : Certificate) : String := certificate.toJson.prettyText

/-- Reads the text of a certificate, whatever its checksum. -/
def parse? (text : String) : Option Certificate := (Value.ofText? text).bind ofJson?

/-- Reads the text of a certificate file, provided that its checksum is right. -/
def ofFileText (text : String) : Except CertificateFileError Certificate :=
  match parse? text with
  | none => .error .json
  | some certificate =>
    if certificate.verifyChecksum then .ok certificate
    else .error (.checksumMismatch certificate.checksum certificate.computeChecksum)

end Certificate

end LatticeLedger
