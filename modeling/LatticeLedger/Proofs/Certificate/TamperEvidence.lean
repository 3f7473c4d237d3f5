import LatticeLedger.Proofs.Certificate.FileRoundTrip
import LatticeLedger.Proofs.Files.Loading

/-!
# A changed certificate shows, unless the hash has a collision

The checksum of a certificate is the hash of its body's compact text. That text determines the
body: no text, list or number in it can run into its neighbour, since the text is read back as the
one value that was written. So two bodies with the same checksum are the same body, or their texts
are two messages with the same hash.
-/

namespace LatticeLedger

namespace Sha256

/-- Two messages that have the same hash although they differ. -/
structure Collision (first second : List UInt8) : Prop where
  distinct : first ≠ second
  same : digest first = digest second

/-- Hexadecimal digits of different values are different. -/
theorem digitChar_inj {m n : Nat} (hm : m < 16) (hn : n < 16)
    (h : Nat.digitChar m = Nat.digitChar n) : m = n := by
  have hall : ∀ m n : Fin 16, Nat.digitChar m = Nat.digitChar n → m = n := by decide
  exact Fin.mk.inj (hall ⟨m, hm⟩ ⟨n, hn⟩ h)

/-- Bytes are determined by their hexadecimal digits. -/
theorem hex_inj {first second : List UInt8} : hex first = hex second ↔ first = second := by
  refine ⟨fun h => ?_, congrArg hex⟩
  replace h := String.ofList_injective h
  induction first generalizing second with
  | nil =>
    cases second with
    | nil => rfl
    | cons byte second => exact absurd h (by simp)
  | cons byte first ih =>
    cases second with
    | nil => exact absurd h (by simp)
    | cons other second =>
      simp only [List.flatMap_cons, List.cons_append, List.nil_append, List.cons.injEq] at h
      obtain ⟨hhigh, hlow, hrest⟩ := h
      have hbyte := byte.toNat_lt
      have hother := other.toNat_lt
      have hdiv : byte.toNat / 16 = other.toNat / 16 :=
        digitChar_inj (by omega) (by omega) hhigh
      have hmod : byte.toNat % 16 = other.toNat % 16 :=
        digitChar_inj (by omega) (by omega) hlow
      have heq : byte = other := UInt8.toNat_inj.1 (by omega)
      rw [heq, ih hrest]

end Sha256

/-- The bytes of an array are collected from a place on, behind those collected before. -/
theorem toList_loop_eq (bytes : ByteArray) (place : Nat) (latestFirst : List UInt8) :
    ByteArray.toList.loop bytes place latestFirst =
      latestFirst.reverse ++ bytes.data.toList.drop place := by
  induction place, latestFirst using ByteArray.toList.loop.induct bytes with
  | case1 place latestFirst hlt ih =>
    have hget : bytes.data.toList.drop place =
        bytes.get! place :: bytes.data.toList.drop (place + 1) := by
      rw [List.drop_eq_getElem_cons (by simpa using hlt)]
      exact congrArg (· :: _) (getElem!_pos bytes.data place hlt).symm
    rw [ByteArray.toList.loop, if_pos hlt, ih, hget, List.reverse_cons, List.append_assoc,
      List.singleton_append]
  | case2 place latestFirst hge =>
    have hend : bytes.data.toList.drop place = [] :=
      List.drop_eq_nil_of_le (by simpa using hge)
    rw [ByteArray.toList.loop, if_neg hge, hend, List.append_nil]

/-- A text is determined by its bytes. -/
theorem toList_toUTF8_inj {first second : String} :
    first.toUTF8.toList = second.toUTF8.toList ↔ first = second := by
  refine ⟨fun h => ?_, fun h => h ▸ rfl⟩
  rw [ByteArray.toList, ByteArray.toList, toList_loop_eq, toList_loop_eq] at h
  exact String.toByteArray_inj.1 (ByteArray.ext (Array.toList_inj.1 h))

namespace CertificateBody

/-- The bytes over which the checksum of a body is taken. -/
def canonicalBytes (body : CertificateBody) : List UInt8 := body.canonicalText.toUTF8.toList

/-- Whether a body states the base of an anchor. -/
def Certifies (body : CertificateBody) (anchor : UInt8) : Prop :=
  ∃ position ∈ body.anchorPositions, position.anchor = anchor

/-- The checksum is the digest of the canonical bytes, written in hexadecimal. -/
theorem computeChecksum_eq (body : CertificateBody) :
    body.computeChecksum = Sha256.hex (Sha256.digest body.canonicalBytes) := rfl

variable {first second : CertificateBody}

/-- Bodies with the same members are the same, as each of their fields is a member. -/
theorem members_inj : first.members = second.members ↔ first = second := by
  refine ⟨fun h => ?_, congrArg members⟩
  -- A body is read as part of a certificate; which checksum stands beside it does not matter.
  have hjson : Certificate.toJson { first with checksum := "" } =
      Certificate.toJson { second with checksum := "" } := by
    rw [Certificate.toJson, Certificate.toJson, h]
  have hread := Certificate.ofJson?_toJson { first with checksum := "" }
  rw [hjson, Certificate.ofJson?_toJson] at hread
  exact congrArg Certificate.toCertificateBody (Option.some.inj hread).symm

/-- The canonical bytes determine the body. -/
theorem canonicalBytes_inj : first.canonicalBytes = second.canonicalBytes ↔ first = second := by
  have hfirst := Json.Value.written_ofMembers first.written_members
  have hsecond := Json.Value.written_ofMembers second.written_members
  rw [canonicalBytes, canonicalBytes, toList_toUTF8_inj, canonicalText, canonicalText,
    Json.Value.compactText_inj hfirst hsecond, Json.ofMembers_inj, members_inj]

/-- Bodies with the same checksum are the same, or their canonical bytes collide. -/
theorem eq_or_collision (h : first.computeChecksum = second.computeChecksum) :
    first = second ∨ Sha256.Collision first.canonicalBytes second.canonicalBytes := by
  rw [computeChecksum_eq, computeChecksum_eq, Sha256.hex_inj] at h
  by_cases hsame : first = second
  · exact .inl hsame
  · exact .inr ⟨mt canonicalBytes_inj.1 hsame, h⟩

end CertificateBody

namespace Certificate

/-- Whatever texts, numbers and lists are in two certificates, the bytes under their checksums are
the same exactly if all other fields are. So a file that is accepted under the checksum of some
certificate holds the fields of that certificate, or it exhibits two messages with the same hash.
In particular no file can replace the certified anchors without such a collision. -/
theorem tamper_evident :
    (∀ certificate : Certificate,
      certificate.computeChecksum = Sha256.hex (Sha256.digest certificate.canonicalBytes)) ∧
    (∀ first second : Certificate, first.canonicalBytes = second.canonicalBytes ↔
      first.toCertificateBody = second.toCertificateBody) ∧
    (∀ (original loaded : Certificate) (directory after : Directory) (path : String),
      original.verifyChecksum = true →
      (load ofFileText path : StateM Directory _).run directory = (.ok loaded, after) →
      loaded.checksum = original.checksum →
      loaded.toCertificateBody = original.toCertificateBody ∨
        Sha256.Collision loaded.canonicalBytes original.canonicalBytes) ∧
    ∀ first second : Certificate,
      (¬∀ anchor, first.Certifies anchor ↔ second.Certifies anchor) →
      first.canonicalBytes ≠ second.canonicalBytes := by
  refine ⟨fun certificate => certificate.computeChecksum_eq, ?_, ?_, ?_⟩
  · intro first second
    exact CertificateBody.canonicalBytes_inj
  · intro original loaded directory after path horiginal hload hchecksum
    obtain ⟨-, text, -, haccept⟩ := run_load_eq_ok_iff.1 hload
    obtain ⟨-, hloaded⟩ := ofFileText_eq_ok_iff.1 haccept
    apply CertificateBody.eq_or_collision
    rw [verifyChecksum, beq_iff_eq] at horiginal hloaded
    rw [hloaded, hchecksum, horiginal]
  · intro first second hanchors hbytes
    apply hanchors
    intro anchor
    rw [CertificateBody.canonicalBytes_inj.1 hbytes]

/-- The texts of this certificate contain what a careless writer would take for the end of a text
or of a list. A file that holds it without any white space is accepted under the same checksum and
has the same fields. Without its only anchor the certificate has other bytes. -/
theorem tamper_evident_of_compact_file :
    let body : CertificateBody :=
      { certificateType := "a\",\"schema_version\":2", schemaVersion := 1,
        description := "é\n\\", classes := 0, anchors := 1, orbitSize := 0, coordsPerClass := 0,
        foldRows := 0, foldCols := 0, order := 0, rank := 0,
        generators := [⟨0, .column, 0, "],["⟩], anchorPositions := [⟨5, 40, 0⟩],
        orbitSamples := [] }
    let original : Certificate := { body with checksum := body.computeChecksum }
    let bare : Certificate := { original with anchorPositions := [] }
    ∃ directory loaded, directory.readText "certificate.json" = .ok original.toJson.compactText ∧
      (load ofFileText "certificate.json" : StateM Directory _).run directory =
        (.ok loaded, directory) ∧
      original.verifyChecksum = true ∧ loaded.checksum = original.checksum ∧
      loaded.toCertificateBody = body ∧ original.canonicalBytes ≠ bare.canonicalBytes := by
  intro body original bare
  have hresolve : ({} : Directory).resolve "certificate.json" =
      .ok (.entry .here "certificate.json") := by
    have hname : "certificate.json".contains '\x00' = false := by simp
    rw [Directory.resolve, hname]
    decide +kernel
  have hwrite : ({} : Directory).writeText "certificate.json" original.toJson.compactText =
      .ok _ := Directory.writeText_of_resolve hresolve (by decide +kernel) (by decide +kernel)
  have hread := Directory.readText_of_writeText hresolve hwrite
  have hverify : original.verifyChecksum = true := beq_self_eq_true body.computeChecksum
  have hload := run_load_eq_ok_iff.2 ⟨rfl, _, hread,
    ofFileText_eq_ok_iff.2 ⟨parse?_compactText original, hverify⟩⟩
  obtain ⟨-, -, htamper, hanchors⟩ := tamper_evident
  refine ⟨_, original, hread, hload, hverify, rfl, ?_, ?_⟩
  · rcases htamper original original _ _ _ hverify hload rfl with hsame | hcollision
    · exact hsame
    · exact absurd rfl hcollision.distinct
  · apply hanchors
    intro hsame
    obtain ⟨position, hmem, -⟩ := (hsame 5).1 ⟨⟨5, 40, 0⟩, List.mem_singleton.2 rfl, rfl⟩
    exact absurd hmem List.not_mem_nil

end Certificate

end LatticeLedger
