import LatticeLedger.Audit.Json
import LatticeLedger.Proofs.Audit.Reading
import LatticeLedger.Proofs.Audit.Tally
import LatticeLedger.Proofs.Json.Compact
import LatticeLedger.Proofs.Json.Fields

/-!
# A report is read back as it was written

In the text of a report a tally is an object whose names are digits, and a reference to a step is
a string or a number. Both are told apart from everything else that is written, so a report is read
back from its text whatever it says, as long as its counts are counts of 64 bits. The counts of an
audit are: none is above the number of records, except that of the coordinates to be visited, which
the contract of a schedule bounds.
-/

namespace LatticeLedger

open Json Value

/-! ### Numbers as names -/

/-- A digit is written as itself. -/
theorem Json.Piece.ofChar_of_isDigit {c : Char} (h : c.isDigit = true) :
    Piece.ofChar c = .plain c := by
  have hplain : needsEscape c = false := by
    simp only [Char.isDigit, Bool.and_eq_true, decide_eq_true_eq, UInt32.le_iff_toNat_le] at h
    simp only [needsEscape, Bool.or_eq_false_iff, beq_eq_false_iff_ne, decide_eq_false_iff_not]
    refine ⟨⟨?_, ?_⟩, ?_⟩
    · rintro rfl
      exact absurd h.1 (by decide)
    · rintro rfl
      exact absurd h.2 (by decide)
    · have hlow : 48 ≤ c.toNat := h.1
      omega
  rw [Piece.ofChar, hplain]
  rfl

/-- A number needs no escapes, so the name that it is written as is the name of its digits. -/
theorem plain_toDigits (n : Nat) :
    (Nat.toDigits 10 n).map Piece.plain = Body.ofText (String.ofList (Nat.toDigits 10 n)) := by
  rw [Body.ofText, String.toList_ofList]
  refine List.map_congr_left fun c hmem => ?_
  have hdigit := Nat.isDigit_of_mem_toDigits (by decide) (by decide) hmem
  exact (Piece.ofChar_of_isDigit hdigit).symm

namespace Tally

/-- A tally is written with names that are digits and with counts as numbers. -/
theorem written_toJson (tally : Tally) : tally.toJson.Written := by
  refine membersWritten_iff.2 fun member hmem => ?_
  obtain ⟨⟨key, count⟩, -, rfl⟩ := List.mem_map.1 hmem
  exact ⟨⟨_, plain_toDigits key.toNat⟩, written_ofNat count⟩

/-- A written tally is read back: its names are the numbers that were counted. -/
theorem map?_toJson {tally : Tally} (h : ∀ count ∈ tally.values, count < UInt64.size) :
    map? count? tally.toJson = some tally := by
  rw [toJson, map?, mapM_map_eq_some, Option.bind_eq_bind, Option.bind_some,
    OrderedMap.ofList_toList]
  · rfl
  · rintro ⟨key, count⟩ hmem
    have hcount : count? (ofNat count) = some count :=
      natBelow?_ofNat (h count (List.mem_map_of_mem hmem))
    have hscan : Number.scan? (Nat.toDigits 10 key.toNat) = some (.ofNat key.toNat, []) := by
      have hliteral := Number.scan?_ofNat (n := key.toNat) Number.endsBefore_nil
      rwa [List.append_nil, Number.chars_ofNat] at hliteral
    refine Option.bind_eq_some_iff.2 ⟨_, mapM_map_eq_some fun _ _ => rfl, ?_⟩
    refine Option.bind_eq_some_iff.2 ⟨_, hscan, ?_⟩
    refine Option.bind_eq_some_iff.2 ⟨key, uint32?_ofNat key, ?_⟩
    rw [hcount]
    rfl

end Tally

namespace StepRef

/-- A reference is written as a text or as a number. -/
theorem written_toJson (ref : StepRef) : ref.toJson.Written := by
  cases ref with
  | entryId id => exact written_ofString id
  | position t => exact written_ofNat t.toNat

/-- The type of the value tells an id from a position, even if the id consists of digits. -/
theorem ofJson?_toJson (ref : StepRef) : ofJson? ref.toJson = some ref := by
  cases ref with
  | entryId id => rw [toJson, ofString, ofJson?, Body.text?_ofText, Option.map_some]
  | position t =>
    have hread := uint64?_ofNat t
    rw [toJson]
    rw [ofJson?, hread, Option.map_some]
    exact nofun

end StepRef

namespace MissingKinds

/-- An entry on missing closings is written with a reference and with texts. -/
theorem written_toJson (missing : MissingKinds) : missing.toJson.Written := by
  have hkinds : (Value.array (missing.kinds.map ofString)).Written :=
    written_array (by simp [written_ofString])
  exact written_ofMembers (by simp [missing.step.written_toJson, hkinds])

/-- An entry on missing closings is read back as it was written. -/
theorem ofJson?_toJson (missing : MissingKinds) : ofJson? missing.toJson = some missing := by
  have hkinds := list?_map text?_ofString missing.kinds
  rw [ofJson?, toJson, fields?_ofLayout rfl (by decide) (by decide)]
  simp [Fields.required, List.lookup_cons, missing.step.ofJson?_toJson, hkinds]

end MissingKinds

namespace Report

/-- The counts of a report. -/
def counts (report : Report) : List Nat :=
  [report.totalSteps, report.classSkew, report.anchorSkew, report.auditEntries,
    report.coordsVisited, report.scheduledCoords] ++
    report.classDistribution.values ++ report.anchorDistribution.values

/-- Whether every count of a report is one of 64 bits. -/
def Fits (report : Report) : Prop := ∀ count ∈ report.counts, count < UInt64.size

/-- The members of a report as it is written. -/
def members (report : Report) : Fields :=
  [("total_steps", .ofNat report.totalSteps),
    ("class_distribution", report.classDistribution.toJson),
    ("anchor_distribution", report.anchorDistribution.toJson),
    ("class_skew", .ofNat report.classSkew), ("anchor_skew", .ofNat report.anchorSkew),
    ("fair_classes_ok", .bool report.fairClasses), ("fair_anchors_ok", .bool report.fairAnchors),
    ("bad_classes", .array (report.badClasses.map fun n => .ofNat n.toNat)),
    ("bad_anchors", .array (report.badAnchors.map fun n => .ofNat n.toNat)),
    ("missing_petc", .array (report.missing.map StepRef.toJson)),
    ("missing_kinds", .array (report.missingKinds.map MissingKinds.toJson)),
    ("audit_entries", .ofNat report.auditEntries),
    ("audit_compliance_ok", .bool report.auditCompliance),
    ("coords_visited", .ofNat report.coordsVisited),
    ("scheduled_coords", .ofNat report.scheduledCoords),
    ("coverage_complete", .bool report.coverageComplete)]

/-- A report is written as the object of its members. -/
theorem toJson_eq (report : Report) : report.toJson = ofMembers report.members := rfl

/-- Every member of a report is written as the library writes values. -/
theorem written_toJson (report : Report) : report.toJson.Written := by
  have hwords (words : List UInt32) :
      (Value.array (words.map fun n => ofNat n.toNat)).Written :=
    written_array (by simp [written_ofNat])
  have hrefs : (Value.array (report.missing.map StepRef.toJson)).Written :=
    written_array (by simp [StepRef.written_toJson])
  have hkinds : (Value.array (report.missingKinds.map MissingKinds.toJson)).Written :=
    written_array (by simp [MissingKinds.written_toJson])
  have hflag (b : Bool) : (Value.bool b).Written := trivial
  rw [toJson_eq]
  exact written_ofMembers (by
    simp [members, written_ofNat, Tally.written_toJson, hwords, hrefs, hkinds, hflag])

/-- A written report is read back. -/
theorem ofJson?_toJson {report : Report} (h : report.Fits) :
    ofJson? report.toJson = some report := by
  let fields : Fields := report.members
  have hcount (name : String) {n : Nat} (hlookup : fields.lookup name = some (ofNat n))
      (hmem : n ∈ report.counts) : fields.required name count? = some n :=
    required_of_lookup hlookup (natBelow?_ofNat (h n hmem))
  have hflag (name : String) (b : Bool) (hlookup : fields.lookup name = some (.bool b)) :
      fields.required name bool? = some b :=
    required_of_lookup hlookup rfl
  have htally (name : String) (tally : Tally) (hlookup : fields.lookup name = some tally.toJson)
      (hmem : ∀ count ∈ tally.values, count ∈ report.counts) :
      fields.required name (map? count?) = some tally :=
    required_of_lookup hlookup (Tally.map?_toJson fun count hcount => h count (hmem count hcount))
  have hwords (name : String) (words : List UInt32)
      (hlookup : fields.lookup name = some (.array (words.map fun n => ofNat n.toNat))) :
      fields.required name (list? uint32?) = some words :=
    required_of_lookup hlookup (list?_map uint32?_ofNat words)
  have hrefs : fields.required "missing_petc" (list? StepRef.ofJson?) = some report.missing :=
    required_of_lookup rfl (list?_map StepRef.ofJson?_toJson report.missing)
  have hkinds : fields.required "missing_kinds" (list? MissingKinds.ofJson?) =
      some report.missingKinds :=
    required_of_lookup rfl (list?_map MissingKinds.ofJson?_toJson report.missingKinds)
  rw [toJson_eq, ofJson?, fields?_ofLayout rfl (by decide) (by decide), Option.bind_eq_bind,
    Option.bind_some, hcount "total_steps" rfl (by simp [counts]),
    htally "class_distribution" report.classDistribution rfl (by simp +contextual [counts]),
    htally "anchor_distribution" report.anchorDistribution rfl (by simp +contextual [counts]),
    hcount "class_skew" rfl (by simp [counts]), hcount "anchor_skew" rfl (by simp [counts]),
    hflag "fair_classes_ok" report.fairClasses rfl, hflag "fair_anchors_ok" report.fairAnchors rfl,
    hwords "bad_classes" report.badClasses rfl, hwords "bad_anchors" report.badAnchors rfl, hrefs,
    hkinds, hcount "audit_entries" rfl (by simp [counts]),
    hflag "audit_compliance_ok" report.auditCompliance rfl,
    hcount "coords_visited" rfl (by simp [counts]),
    hcount "scheduled_coords" rfl (by simp [counts]),
    hflag "coverage_complete" report.coverageComplete rfl]
  rfl

/-- A report is read back from its text. -/
theorem parse?_text {report : Report} (h : report.Fits) : parse? report.text = some report := by
  rw [parse?, text, ofText?_prettyText report.written_toJson, Option.bind_some, ofJson?_toJson h]

/-- White space does not matter to the reader of a report. -/
theorem parse?_compactText {report : Report} (h : report.Fits) :
    parse? report.toJson.compactText = some report := by
  rw [parse?, ofText?_compactText report.written_toJson, Option.bind_some, ofJson?_toJson h]

/-- A report loses nothing when it is written, be it one of an audit or not. Its text, indented or
compact, is read back as the same report with the same verdict. So no two reports have one text, not
even if they differ only in whether digits are the id of a step or its position. -/
theorem reads_back_as_written {report : Report} (h : report.Fits) :
    parse? report.text = some report ∧ parse? report.toJson.compactText = some report ∧
      (parse? report.text).map allOk = some report.allOk ∧
      ∀ other : Report, other.Fits → other.text = report.text → other = report := by
  have hread : parse? report.text = some report := parse?_text h
  refine ⟨hread, parse?_compactText h, by rw [hread, Option.map_some], ?_⟩
  intro other hother heq
  have hread' : parse? other.text = some other := parse?_text hother
  rw [heq, hread] at hread'
  exact (Option.some.inj hread').symm

/-- A report that no audit makes: counts and numbers are as high as they can be, the digits of the
highest position are once an id and once a position, and an id and a kind need escapes. Its text
differs from that of the report in which these two steps change places. -/
theorem reads_back_as_written_of_digits :
    let id := "18446744073709551615"
    let foreign := "\"\\\n"
    let report : Report :=
      { totalSteps := 18446744073709551615, classSkew := 18446744073709551615, anchorSkew := 0
        classDistribution := OrderedMap.ofList [(4294967295, 18446744073709551615), (10, 0), (9, 1)]
        anchorDistribution := ∅, fairClasses := true, fairAnchors := false
        badClasses := [4294967295, 0, 0], badAnchors := []
        missing := [.entryId id, .position 18446744073709551615, .entryId foreign]
        missingKinds := [⟨.entryId "", [foreign, foreign]⟩, ⟨.position 0, []⟩]
        auditEntries := 0, auditCompliance := true, coordsVisited := 7, scheduledCoords := 0
        coverageComplete := false }
    let exchanged : Report :=
      { report with missing := [.position 18446744073709551615, .entryId id, .entryId foreign] }
    report.Fits ∧ exchanged.Fits ∧ parse? report.text = some report ∧
      parse? report.toJson.compactText = some report ∧
      (parse? report.text).map allOk = some false ∧ exchanged.text ≠ report.text := by
  intro id foreign report exchanged
  have hfits : report.Fits := by
    unfold Fits
    decide +kernel
  have hfits' : exchanged.Fits := hfits
  obtain ⟨hread, hcompact, hverdict, hdiffer⟩ := reads_back_as_written hfits
  refine ⟨hfits, hfits', hread, hcompact, hverdict, fun heq => ?_⟩
  have hmissing : exchanged.missing = report.missing :=
    congrArg missing (hdiffer exchanged hfits' heq)
  exact absurd hmissing (by decide)

end Report

/-! ### The counts of an audit -/

namespace Tally

/-- No number occurs more often than a list is long. -/
theorem values_ofList_le {keys : List UInt32} {count : Nat}
    (h : count ∈ (ofList keys).values) : count ≤ keys.length := by
  obtain ⟨entry, hentry, rfl⟩ := List.mem_map.1 h
  obtain ⟨key, -, rfl⟩ := mem_toList_ofList.1 hentry
  exact List.count_le_length

/-- Two counts of a list differ at most by its length. -/
theorem skew_ofList_le (keys : List UInt32) : (ofList keys).skew ≤ keys.length := by
  have hhighest : (ofList keys).highest ≤ keys.length := by
    rw [highest]
    cases hmax : (ofList keys).values.max? with
    | none => exact Nat.zero_le _
    | some count => exact values_ofList_le (List.max?_mem hmax)
  exact Nat.le_trans (Nat.sub_le _ _) hhighest

end Tally

namespace Report

/-- Every count of a report but one is of entries or of differences of such counts. -/
theorem counts_ofEntries_le {schedule : Schedule} {policy : Policy} {entries : List Entry}
    {count : Nat} (h : count ∈ (ofEntries schedule policy entries).counts) :
    count ≤ entries.length ∨ count = schedule.coords := by
  have hsteps : (Entry.steps entries).length ≤ entries.length := List.length_filterMap_le _ _
  have hcheckpoints : (Entry.checkpoints entries).length ≤ entries.length :=
    List.length_filterMap_le _ _
  have hvisited (coords : List Nat) : (OrderedSet.ofList coords).size ≤ coords.length := by
    rw [OrderedSet.size_ofList]
    exact List.toFinset_card_le coords
  have hkeys (key : AuditedStep → UInt32) :
      ((Entry.steps entries).map key).length ≤ entries.length := by
    rwa [List.length_map]
  simp only [counts, List.mem_append, List.mem_cons, List.not_mem_nil, or_false] at h
  rcases h with ((rfl | rfl | rfl | rfl | rfl | rfl) | hmem) | hmem
  · exact .inl hsteps
  · exact .inl (Nat.le_trans (Tally.skew_ofList_le _) (hkeys _))
  · exact .inl (Nat.le_trans (Tally.skew_ofList_le _) (hkeys _))
  · exact .inl hcheckpoints
  · refine .inl (Nat.le_trans (hvisited _) (Nat.le_trans ?_ hsteps))
    exact List.length_filterMap_le _ _
  · exact .inr rfl
  · exact .inl (Nat.le_trans (Tally.values_ofList_le hmem) (hkeys _))
  · exact .inl (Nat.le_trans (Tally.values_ofList_le hmem) (hkeys _))

end Report

/-- The contract of a schedule bounds the coordinates to be visited. -/
theorem Schedule.coords_le_of_check {schedule : Schedule} (h : schedule.check = .ok ()) :
    schedule.coords ≤ coordCount := by
  obtain ⟨_, -, h⟩ := bind_eq_ok_iff.1 h
  obtain ⟨_, -, h⟩ := bind_eq_ok_iff.1 h
  exact require_eq_ok_iff.1 h

/-- The counts of the report on a ledger of fewer than `2 ^ 64` records have 64 bits. -/
theorem fits_of_audit {ledger : List Record} {schedule : Schedule} {policy : Policy}
    {report : Report} (h : audit ledger schedule policy = .ok report)
    (hlength : ledger.length < UInt64.size) : report.Fits := by
  obtain ⟨hschedule, -, entries, hentries, rfl⟩ := audit_eq_ok_iff.1 h
  intro count hmem
  rcases Report.counts_ofEntries_le hmem with hle | rfl
  · have hsame : ledger.length = entries.length := hentries.length_eq
    omega
  · exact Nat.lt_of_le_of_lt (Schedule.coords_le_of_check hschedule) (by decide)

end LatticeLedger
