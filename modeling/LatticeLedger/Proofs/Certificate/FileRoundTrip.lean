import LatticeLedger.Certificate.File
import LatticeLedger.Proofs.Json.Compact
import LatticeLedger.Proofs.Json.Fields

/-!
# A certificate is read back as it was written

Every part of a certificate is an object with all of its fields or a list of such objects, so a
certificate is read back from its value, whatever its fields contain and whether or not its
checksum is right. With the reader of texts the same holds for the text over several lines and for
the compact text, and a file with either of them is accepted exactly if the checksum is right.
-/

namespace LatticeLedger

open Json Value Symmetry

/-- Every target is found by its own name. -/
theorem Symmetry.Target.ofName?_name (target : Target) :
    Target.ofName? target.name = some target := by
  cases target <;> rfl

/-- The name of a target is read as that target. -/
theorem choice?_target (target : Target) :
    choice? Target.ofName? (ofString target.name) = some target := by
  rw [ofString, choice?, Body.text?_ofText, Option.bind_some, target.ofName?_name]

namespace GridPoint

/-- A point is read back as it was written. -/
theorem ofJson?_toJson (point : GridPoint) : ofJson? point.toJson = some point := by
  rw [ofJson?, toJson, fields?_ofLayout rfl (by decide) (by decide)]
  simp [Fields.required, List.lookup_cons, uint8?_ofNat]

/-- A point is written as an object of numbers. -/
theorem written_toJson (point : GridPoint) : point.toJson.Written :=
  written_ofMembers (by simp [written_ofNat])

end GridPoint

namespace GeneratorEntry

/-- A generator is read back as it was written. -/
theorem ofJson?_toJson (entry : GeneratorEntry) : ofJson? entry.toJson = some entry := by
  rw [ofJson?, toJson, fields?_ofLayout rfl (by decide) (by decide)]
  simp [Fields.required, List.lookup_cons, uint8?_ofNat, choice?_target, text?_ofString]

/-- A generator is written as an object of a number and a name. -/
theorem written_toJson (entry : GeneratorEntry) : entry.toJson.Written :=
  written_ofMembers (by simp [written_ofNat, written_ofString])

end GeneratorEntry

namespace AnchorPosition

/-- The position of an anchor is read back as it was written. -/
theorem ofJson?_toJson (position : AnchorPosition) : ofJson? position.toJson = some position := by
  rw [ofJson?, toJson, fields?_ofLayout rfl (by decide) (by decide)]
  simp [Fields.required, List.lookup_cons, uint8?_ofNat]

/-- The position of an anchor is written as an object of numbers. -/
theorem written_toJson (position : AnchorPosition) : position.toJson.Written :=
  written_ofMembers (by simp [written_ofNat])

end AnchorPosition

namespace OrbitSample

/-- A sample is read back as it was written. -/
theorem ofJson?_toJson (sample : OrbitSample) : ofJson? sample.toJson = some sample := by
  rw [ofJson?, toJson, fields?_ofLayout rfl (by decide) (by decide)]
  simp [Fields.required, List.lookup_cons, uint8?_ofNat, uint16?_ofNat,
    GridPoint.ofJson?_toJson]

/-- A sample is written as an object of numbers. -/
theorem written_toJson (sample : OrbitSample) : sample.toJson.Written :=
  written_ofMembers (by simp [written_ofNat, GridPoint.written_toJson])

end OrbitSample

/-- Every member of the body of a certificate is written as the library writes values. -/
theorem CertificateBody.written_members (body : CertificateBody) :
    ∀ member ∈ body.members, member.2.Written := by
  have hgenerators : (Value.array (body.generators.map GeneratorEntry.toJson)).Written :=
    written_array (by simp [GeneratorEntry.written_toJson])
  have hpositions : (Value.array (body.anchorPositions.map AnchorPosition.toJson)).Written :=
    written_array (by simp [AnchorPosition.written_toJson])
  have hsamples : (Value.array (body.orbitSamples.map OrbitSample.toJson)).Written :=
    written_array (by simp [OrbitSample.written_toJson])
  simp [members, written_ofString, written_ofNat, hgenerators, hpositions, hsamples]

namespace Certificate

variable (certificate : Certificate)

/-- A written certificate is read back, whatever its checksum. -/
theorem ofJson?_toJson : ofJson? certificate.toJson = some certificate := by
  let fields : Fields := certificate.members ++ [("checksum", ofString certificate.checksum)]
  have htext (name text : String) (hlookup : fields.lookup name = some (ofString text)) :
      fields.required name text? = some text :=
    required_of_lookup hlookup (text?_ofString text)
  have hword (name : String) (n : UInt32) (hlookup : fields.lookup name = some (ofNat n.toNat)) :
      fields.required name uint32? = some n :=
    required_of_lookup hlookup (uint32?_ofNat n)
  have hgenerators : fields.required "generators" (list? GeneratorEntry.ofJson?) =
      some certificate.generators :=
    required_of_lookup rfl (list?_map GeneratorEntry.ofJson?_toJson certificate.generators)
  have hpositions : fields.required "anchor_positions" (list? AnchorPosition.ofJson?) =
      some certificate.anchorPositions :=
    required_of_lookup rfl (list?_map AnchorPosition.ofJson?_toJson certificate.anchorPositions)
  have hsamples : fields.required "orbit_samples" (list? OrbitSample.ofJson?) =
      some certificate.orbitSamples :=
    required_of_lookup rfl (list?_map OrbitSample.ofJson?_toJson certificate.orbitSamples)
  rw [ofJson?, toJson, fields?_ofLayout rfl (by decide) (by decide), Option.bind_eq_bind,
    Option.bind_some, htext "type" certificate.certificateType rfl,
    hword "schema_version" certificate.schemaVersion rfl,
    htext "description" certificate.description rfl, hword "classes" certificate.classes rfl,
    hword "anchors" certificate.anchors rfl, hword "orbit_size" certificate.orbitSize rfl,
    hword "coords_per_class" certificate.coordsPerClass rfl,
    hword "fold_rows" certificate.foldRows rfl, hword "fold_cols" certificate.foldCols rfl,
    hword "order" certificate.order rfl, hword "rank" certificate.rank rfl, hgenerators,
    hpositions, hsamples, htext "checksum" certificate.checksum rfl]
  rfl

/-- A certificate is written as the library writes values. -/
theorem written_toJson : certificate.toJson.Written := by
  refine written_ofMembers fun member hmem => ?_
  rcases List.mem_append.1 hmem with hbody | hchecksum
  · exact certificate.written_members member hbody
  · rw [List.mem_singleton.1 hchecksum]
    exact written_ofString certificate.checksum

/-- The text of a certificate is read as that certificate. -/
theorem parse?_text : parse? certificate.text = some certificate := by
  rw [parse?, text, ofText?_prettyText certificate.written_toJson, Option.bind_some,
    ofJson?_toJson]

/-- The text of a certificate without white space is read as that certificate as well. -/
theorem parse?_compactText : parse? certificate.toJson.compactText = some certificate := by
  rw [parse?, ofText?_compactText certificate.written_toJson, Option.bind_some, ofJson?_toJson]

/-- A file is accepted exactly if it holds a certificate with the right checksum. -/
theorem ofFileText_eq_ok_iff {text : String} {certificate : Certificate} :
    ofFileText text = .ok certificate ↔
      parse? text = some certificate ∧ certificate.verifyChecksum = true := by
  rw [ofFileText]
  split
  case h_1 hnone => simp [hnone]
  case h_2 found hfound =>
    rw [hfound, Option.some_inj]
    split
    case isTrue hright =>
      rw [Except.ok.injEq]
      exact ⟨fun heq => ⟨heq, heq ▸ hright⟩, And.left⟩
    case isFalse hwrong =>
      refine ⟨nofun, ?_⟩
      rintro ⟨rfl, hright⟩
      exact absurd hright hwrong

end Certificate

end LatticeLedger
