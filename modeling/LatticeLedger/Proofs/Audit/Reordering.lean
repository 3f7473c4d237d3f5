import LatticeLedger.Proofs.Audit.Reading
import Mathlib.Data.List.Perm.Basic

/-!
# The order of a ledger

An audit reads a ledger from its first record to its last, but what it reports does not depend on
where a record stands: it counts classes, anchors and coordinates, sorts the checkpoints, and asks
for closings only when it has read them all. Two ledgers with the same records are therefore both
accepted or both refused. If they are accepted, the reports are the same, except that the steps that
lack a closing are listed in the order of the ledger.
-/

namespace LatticeLedger

/-- A tally counts what occurs in a list, in whatever order. -/
theorem Tally.ofList_perm {keys others : List UInt32} (h : keys.Perm others) :
    Tally.ofList keys = Tally.ofList others := by
  have hcount : (fun key => (key, keys.count key)) = fun key => (key, others.count key) :=
    funext fun key => by rw [h.count_eq]
  rw [Tally.ofList, Tally.ofList, OrderedSet.ofList_perm h, hcount]

/-- Checkpoints are sorted before their distances are measured. -/
theorem checkpointsCover_perm {checkpoints others : List Nat} (h : checkpoints.Perm others)
    (total interval : Nat) :
    checkpointsCover checkpoints total interval = checkpointsCover others total interval := by
  rw [checkpointsCover, checkpointsCover, OrderedSet.ofList_perm (h.filter _)]

namespace Policy

variable {policy : Policy} {closings otherClosings : List Closing} {steps others : List AuditedStep}

/-- What a step lacks does not depend on the order of the closings. -/
theorem missingFor_perm (h : closings.Perm otherClosings) (step : AuditedStep) :
    policy.missingFor closings step = policy.missingFor otherClosings step := by
  simp only [missingFor, h.any_eq]

/-- The steps that lack a closing are listed in the order of the steps, and what each of them lacks
depends only on which closings there are. -/
theorem missing_perm (hclosings : closings.Perm otherClosings) (hsteps : steps.Perm others) :
    (policy.missing closings steps).Perm (policy.missing otherClosings others) := by
  have hkinds : policy.missingFor closings = policy.missingFor otherClosings :=
    funext (missingFor_perm hclosings)
  rw [missing, missing, hkinds]
  exact (hsteps.map _).filter _

end Policy

/-- Whether two reports agree in every field, the lists of steps that lack a closing excepted; these
have the same elements, a step with the same kinds in both. -/
structure Report.SameUpToOrder (report other : Report) : Prop where
  missing : report.missing.Perm other.missing
  missingKinds : report.missingKinds.Perm other.missingKinds
  others : other =
    { report with missing := other.missing, missingKinds := other.missingKinds }

namespace Report

/-- The verdict asks whether steps lack a closing and not which comes first. -/
theorem SameUpToOrder.allOk_eq {report other : Report} (h : report.SameUpToOrder other) :
    report.allOk = other.allOk := by
  have hclasses : other.fairClasses = report.fairClasses := by rw [h.others]
  have hanchors : other.fairAnchors = report.fairAnchors := by rw [h.others]
  have hcompliance : other.auditCompliance = report.auditCompliance := by rw [h.others]
  rw [allOk, allOk, hclasses, hanchors, hcompliance, h.missing.isEmpty_eq]

/-- A report on entries in another order lists the same steps. -/
theorem sameUpToOrder_ofEntries (schedule : Schedule) (policy : Policy)
    {entries others : List Entry} (h : entries.Perm others) :
    (ofEntries schedule policy entries).SameUpToOrder (ofEntries schedule policy others) := by
  have hsteps : (Entry.steps entries).Perm (Entry.steps others) := h.filterMap _
  have hcheckpoints : (Entry.checkpoints entries).Perm (Entry.checkpoints others) :=
    h.filterMap _
  have hclosings : (Entry.closings entries).Perm (Entry.closings others) := h.filterMap _
  have hmissing : (policy.missing (Entry.closings entries) (Entry.steps entries)).Perm
      (policy.missing (Entry.closings others) (Entry.steps others)) :=
    Policy.missing_perm hclosings hsteps
  refine ⟨hmissing.map _, hmissing, ?_⟩
  -- Every other field is a count, a set, or a verdict on these.
  simp only [ofEntries, hsteps.length_eq, hcheckpoints.length_eq,
    Tally.ofList_perm (hsteps.map _), OrderedSet.ofList_perm (hsteps.filterMap _),
    checkpointsCover_perm (hcheckpoints.map _)]

end Report

/-- The records of a ledger give the same entries in any order. -/
theorem Record.EntriesOf.perm {policy : Policy} {ledger other : List Record}
    {entries : List Entry} (h : EntriesOf policy ledger entries) (hperm : ledger.Perm other) :
    ∃ others, EntriesOf policy other others ∧ entries.Perm others := by
  obtain ⟨others, hothers, horder⟩ := List.perm_comp_forall₂ hperm.symm h
  exact ⟨others, hothers, horder.symm⟩

/-- A ledger with the records of an accepted one is accepted as well. -/
theorem exists_audit_of_perm {ledger other : List Record} {schedule : Schedule} {policy : Policy}
    {report : Report} (hperm : ledger.Perm other) (h : audit ledger schedule policy = .ok report) :
    ∃ found, audit other schedule policy = .ok found ∧ report.SameUpToOrder found := by
  obtain ⟨hschedule, hpolicy, entries, hentries, rfl⟩ := audit_eq_ok_iff.1 h
  obtain ⟨others, hothers, horder⟩ := hentries.perm hperm
  exact ⟨_, audit_eq_ok_iff.2 ⟨hschedule, hpolicy, others, hothers, rfl⟩,
    Report.sameUpToOrder_ofEntries schedule policy horder⟩

/-- An audit does not depend on the order of the ledger, whatever schedule and policy are. Two
ledgers with the same records are both accepted or both refused, and two reports agree in every
field, up to the order in which the steps that lack a closing are listed. The verdict is the same.
-/
theorem audit_perm {ledger other : List Record} (h : ledger.Perm other) (schedule : Schedule)
    (policy : Policy) :
    ((∃ report, audit ledger schedule policy = .ok report) ↔
      ∃ found, audit other schedule policy = .ok found) ∧
    ∀ report found, audit ledger schedule policy = .ok report →
      audit other schedule policy = .ok found →
      report.SameUpToOrder found ∧ report.allOk = found.allOk := by
  refine ⟨⟨?_, ?_⟩, ?_⟩
  · rintro ⟨report, hreport⟩
    obtain ⟨found, hfound, -⟩ := exists_audit_of_perm h hreport
    exact ⟨found, hfound⟩
  · rintro ⟨found, hfound⟩
    obtain ⟨report, hreport, -⟩ := exists_audit_of_perm h.symm hfound
    exact ⟨report, hreport⟩
  · intro report found hreport hfound
    obtain ⟨expected, hexpected, hsame⟩ := exists_audit_of_perm h hreport
    obtain rfl := Except.ok.inj (hexpected.symm.trans hfound)
    exact ⟨hsame, hsame.allOk_eq⟩

/-- A ledger of three steps read forwards and backwards. The closing of the second step stands
before it in one and behind it in the other, the checkpoints are out of order in both, and the two
steps that lack a closing change places. -/
theorem audit_perm_of_reverse :
    let committed (id : String) (t : UInt64) (context : LoggedContext) : Record :=
      { kind := some "ace_step", status := some "committed", entryId := some id, t := some t,
        context := some context }
    let ledger : List Record :=
      [.checkpoint 3, committed "a" 1 { classId := some 4, coord := some 2050 },
        { kind := some "petc", context := some { step := some "b" } },
        committed "b" 2 { classId := some 4, anchor := some 1, vBits := some 2 }, .checkpoint 1,
        committed "c" 1 { classId := some 9, anchor := some 5 }]
    let policy : Policy := { auditEvery := 2 }
    ledger.Perm ledger.reverse ∧
      ∃ report found, audit ledger {} policy = .ok report ∧
        audit ledger.reverse {} policy = .ok found ∧ report.SameUpToOrder found ∧
        report.missing = [.entryId "a", .entryId "c"] ∧
        found.missing = [.entryId "c", .entryId "a"] ∧ report.allOk = found.allOk := by
  intro committed ledger policy
  have hperm : ledger.Perm ledger.reverse := ledger.reverse_perm.symm
  have hforwards : (audit ledger {} policy).toOption.map (·.missing) =
      some [.entryId "a", .entryId "c"] := by decide +kernel
  have hbackwards : (audit ledger.reverse {} policy).toOption.map (·.missing) =
      some [.entryId "c", .entryId "a"] := by decide +kernel
  obtain ⟨haccepted, hsame⟩ := audit_perm hperm {} policy
  cases hreport : audit ledger {} policy with
  | error error =>
    rw [hreport] at hforwards
    cases hforwards
  | ok report =>
    obtain ⟨found, hfound⟩ := haccepted.1 ⟨report, hreport⟩
    obtain ⟨horder, hverdict⟩ := hsame report found hreport hfound
    rw [hreport] at hforwards
    rw [hfound] at hbackwards
    exact ⟨hperm, report, found, rfl, hfound, horder, Option.some.inj hforwards,
      Option.some.inj hbackwards, hverdict⟩

end LatticeLedger
