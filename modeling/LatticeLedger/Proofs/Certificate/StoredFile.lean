import LatticeLedger.Proofs.Certificate.FileRoundTrip
import LatticeLedger.Proofs.Files.Loading

/-!
# A certificate that is stored and loaded

A certificate is written with whatever it holds, but it is only loaded if its checksum is right. So
a file that was written for a certificate gives this very certificate back, or it is refused with
the two checksums. That the file holds no certificate at all is never the reason.
-/

namespace LatticeLedger

namespace Certificate

/-- The text of a certificate is accepted as that certificate if its checksum is right, and is
otherwise refused for its checksum. -/
theorem ofFileText_eq_ite (certificate : Certificate) :
    ofFileText certificate.text =
      if certificate.verifyChecksum then .ok certificate
      else .error (.checksumMismatch certificate.checksum certificate.computeChecksum) := by
  rw [ofFileText, parse?_text]

/-- A certificate, whatever it holds, is written to a file, and the file reads back as it was
written. Loading it gives the certificate, equal in every field, exactly if its checksum is right;
otherwise the recorded and the computed checksum are reported. The text is never refused as such,
and loading changes no file. -/
theorem load_stored {directory stored : Directory} {path : String} {certificate : Certificate}
    (hwrite : directory.writeText path certificate.text = .ok stored)
    (hread : stored.readText path = .ok certificate.text) :
    (FileSystem.writeText path certificate.text : StateM Directory _).run directory =
        (.ok (), stored) ∧
      ((load ofFileText path : StateM Directory _).run stored = (.ok certificate, stored) ↔
        certificate.verifyChecksum = true) ∧
      (certificate.verifyChecksum = false →
        (load ofFileText path : StateM Directory _).run stored =
          (.error (.content
            (.checksumMismatch certificate.checksum certificate.computeChecksum)), stored)) ∧
      ∀ after, (load ofFileText path : StateM Directory _).run stored ≠
        (.error (.content .json), after) := by
  have hstore : (FileSystem.writeText path certificate.text : StateM Directory _).run directory =
      (.ok (), stored) := by
    rw [Directory.run_writeText, hwrite]
  have hload : (load ofFileText path : StateM Directory _).run stored =
      ((ofFileText certificate.text).mapError .content, stored) := run_load_of_readText hread
  rw [ofFileText_eq_ite] at hload
  refine ⟨hstore, ?_⟩
  rw [hload]
  cases certificate.verifyChecksum with
  | true => exact ⟨iff_of_true rfl rfl, nofun, fun _ => nofun⟩
  | false => exact ⟨iff_of_false nofun nofun, fun _ => rfl, fun _ => nofun⟩

/-- A certificate whose texts hold quotes, brackets and line ends and whose numbers fit no lattice
is stored twice under one name: with its checksum, and with one more digit after it. -/
theorem load_stored_of_foreign_contents :
    let body : CertificateBody :=
      { certificateType := "\"\\", schemaVersion := 4294967295, description := "\n]\x7d, é",
        classes := 0, anchors := 1, orbitSize := 2, coordsPerClass := 3, foldRows := 4,
        foldCols := 5, order := 6, rank := 7,
        generators := [⟨200, .rowResidue, 9, "],["⟩, ⟨200, .column, 0, ""⟩],
        anchorPositions := [], orbitSamples := [⟨255, 65535, 0, ⟨1, 2⟩, ⟨3, 4⟩⟩] }
    let right : Certificate := { body with checksum := body.computeChecksum }
    let wrong : Certificate := { body with checksum := body.computeChecksum ++ "0" }
    ∃ first second,
      (FileSystem.writeText "a.json" right.text : StateM Directory _).run {} = (.ok (), first) ∧
      (load ofFileText "a.json" : StateM Directory _).run first = (.ok right, first) ∧
      (FileSystem.writeText "a.json" wrong.text : StateM Directory _).run first =
        (.ok (), second) ∧
      (load ofFileText "a.json" : StateM Directory _).run second =
        (.error (.content (.checksumMismatch (body.computeChecksum ++ "0") body.computeChecksum)),
          second) := by
  intro body right wrong
  have hresolve : ({} : Directory).resolve "a.json" = .ok (.entry .here "a.json") := by
    have hname : "a.json".contains '\x00' = false := by simp
    rw [Directory.resolve, hname]
    decide +kernel
  have hwrite (directory : Directory) (text : String) :
      directory.writeText "a.json" text = .ok ⟨directory.files.insert "a.json" text.toUTF8⟩ :=
    Directory.writeText_of_resolve (Directory.resolve_eq_ok hresolve) (by decide +kernel)
      (by decide +kernel)
  have hread (directory : Directory) (text : String) :=
    Directory.readText_of_writeText (Directory.resolve_eq_ok hresolve) (hwrite directory text)
  have hright : right.verifyChecksum = true := beq_self_eq_true body.computeChecksum
  have hwrong : wrong.verifyChecksum = false := by
    refine beq_eq_false_iff_ne.2 fun heq => ?_
    have hlength := congrArg String.length heq
    rw [String.length_append] at hlength
    exact absurd hlength (Nat.ne_of_lt (Nat.lt_succ_self _))
  obtain ⟨hfirst, hloaded, -, -⟩ := load_stored (hwrite {} right.text) (hread {} right.text)
  obtain ⟨hsecond, -, hrefused, -⟩ := load_stored (hwrite _ wrong.text) (hread _ wrong.text)
  exact ⟨_, _, hfirst, hloaded.2 hright, hsecond, hrefused hwrong⟩

end Certificate

end LatticeLedger
