import LatticeLedger.Proofs.Audit.Checkpoints

/-!
# Asking for less

A schedule and a policy are relaxed by raising tolerances, by requiring fewer kinds of closing, and
by asking for checkpoints less often or not at all. The same ledger then counts the same steps at
the same places, fewer of its records are read as closings, and no verdict that was good turns bad.
The interval in force decides, not the one written in the policy: a policy that leaves it out falls
back on its schedule.
-/

namespace LatticeLedger

/-! ### Checkpoints -/

/-- Checkpoints that are close enough for an interval are so for a wider one, and for none. -/
theorem checkpointsCover_of_le {checkpoints : List Nat} {total interval wider : Nat}
    (hle : wider = 0 ∨ interval ≠ 0 ∧ interval ≤ wider)
    (h : checkpointsCover checkpoints total interval = true) :
    checkpointsCover checkpoints total wider = true := by
  rw [checkpointsCover_iff] at h ⊢
  exact h.of_le hle

/-! ### Entries under two policies -/

namespace Record.EntriesOf

variable {policy looser : Policy} {ledger : List Record} {entries others : List Entry}

/-- The steps of a ledger do not depend on the policy. -/
theorem steps_eq (h : EntriesOf policy ledger entries) (hothers : EntriesOf looser ledger others) :
    Entry.steps entries = Entry.steps others := by
  refine List.right_unique_forall₂' ?_ h.steps hothers.steps
  intro record step other hstep hother
  exact Except.ok.inj (hstep.symm.trans hother)

/-- Neither do its checkpoints. -/
theorem checkpoints_eq (h : EntriesOf policy ledger entries)
    (hothers : EntriesOf looser ledger others) :
    Entry.checkpoints entries = Entry.checkpoints others := by
  refine List.right_unique_forall₂' ?_ h.checkpoints hothers.checkpoints
  intro record t other ht hother
  exact Option.some.inj (ht.symm.trans hother)

/-- The references that a report lists are selected from the ledger. -/
theorem missing_refs_eq (h : EntriesOf policy ledger entries) (hpolicy : policy.check = .ok ()) :
    (policy.missing (Entry.closings entries) (Entry.steps entries)).map (·.step) =
      (ledger.filter fun record => policy.Incomplete ledger record).filterMap stepRef? := by
  have hrefs := congrArg (List.filterMap id) (h.missing_refs hpolicy)
  rwa [List.filterMap_map, List.filterMap_map, List.filterMap_map, Function.id_comp,
    Function.id_comp, List.filterMap_eq_map] at hrefs

end Record.EntriesOf

/-- A step that lacks a closing lacks it under every policy that requires more kinds. -/
theorem Policy.Incomplete.of_subset {policy looser : Policy} {ledger : List Record}
    {record : Record} (hkinds : ∀ kind ∈ looser.perStepKinds, kind ∈ policy.perStepKinds)
    (h : looser.Incomplete ledger record) : policy.Incomplete ledger record := by
  obtain ⟨hcommitted, kind, hrequired, hnone⟩ := h
  exact ⟨hcommitted, kind, hkinds kind hrequired, hnone⟩

/-! ### Reports under two policies -/

/-- Whether a schedule and a policy ask for no more than others do: the tolerances are at least as
high, every required kind was required before, and the interval in force is none or at least as
wide. -/
structure Relaxes (schedule : Schedule) (policy : Policy) (laterSchedule : Schedule)
    (looser : Policy) : Prop where
  classes : policy.classSkewTolerance ≤ looser.classSkewTolerance
  anchors : policy.anchorSkewTolerance ≤ looser.anchorSkewTolerance
  kinds : ∀ kind ∈ looser.perStepKinds, kind ∈ policy.perStepKinds
  interval : looser.interval laterSchedule = 0 ∨
    policy.interval schedule ≠ 0 ∧ policy.interval schedule ≤ looser.interval laterSchedule

/-- A tally that is fair for a tolerance is fair for every higher one. -/
theorem Tally.fair_of_le {tally : Tally} {tolerance higher : UInt64} (hle : tolerance ≤ higher)
    (h : decide (tally.skew ≤ tolerance.toNat) = true) :
    decide (tally.skew ≤ higher.toNat) = true := by
  have hskew : tally.skew ≤ tolerance.toNat := of_decide_eq_true h
  have hnumbers : tolerance.toNat ≤ higher.toNat := UInt64.le_iff_toNat_le.1 hle
  exact decide_eq_true (by omega)

section Entries

variable {ledger : List Record} {schedule laterSchedule : Schedule} {policy looser : Policy}
  {entries others : List Entry}

/-- Both distributions count the same steps, and checkpoints are held against as many steps. -/
theorem Relaxes.verdicts (h : Relaxes schedule policy laterSchedule looser)
    (hentries : Record.EntriesOf policy ledger entries)
    (hothers : Record.EntriesOf looser ledger others) :
    ((Report.ofEntries schedule policy entries).fairClasses = true →
        (Report.ofEntries laterSchedule looser others).fairClasses = true) ∧
      ((Report.ofEntries schedule policy entries).fairAnchors = true →
        (Report.ofEntries laterSchedule looser others).fairAnchors = true) ∧
      ((Report.ofEntries schedule policy entries).auditCompliance = true →
        (Report.ofEntries laterSchedule looser others).auditCompliance = true) := by
  have hsteps : Entry.steps entries = Entry.steps others := hentries.steps_eq hothers
  have hcheckpoints : Entry.checkpoints entries = Entry.checkpoints others :=
    hentries.checkpoints_eq hothers
  rw [Report.ofEntries, hsteps, hcheckpoints]
  refine ⟨Tally.fair_of_le h.classes, Tally.fair_of_le h.anchors, checkpointsCover_of_le ?_⟩
  rcases h.interval with hnone | ⟨hne, hle⟩
  · exact .inl (congrArg UInt64.toNat hnone)
  · refine .inr ⟨fun hzero => hne ?_, UInt64.le_iff_toNat_le.1 hle⟩
    exact UInt64.toNat_inj.1 hzero

/-- Steps that are listed under the relaxed policy were listed before, in the same order. -/
theorem Relaxes.missing_sublist (h : Relaxes schedule policy laterSchedule looser)
    (hpolicy : policy.check = .ok ()) (hlooser : looser.check = .ok ())
    (hentries : Record.EntriesOf policy ledger entries)
    (hothers : Record.EntriesOf looser ledger others) :
    (Report.ofEntries laterSchedule looser others).missing.Sublist
      (Report.ofEntries schedule policy entries).missing := by
  have hbefore : (Report.ofEntries schedule policy entries).missing =
      (ledger.filter fun record => policy.Incomplete ledger record).filterMap Record.stepRef? :=
    hentries.missing_refs_eq hpolicy
  have hlater : (Report.ofEntries laterSchedule looser others).missing =
      (ledger.filter fun record => looser.Incomplete ledger record).filterMap Record.stepRef? :=
    hothers.missing_refs_eq hlooser
  rw [hbefore, hlater]
  apply List.Sublist.filterMap
  apply List.monotone_filter_right
  intro record hincomplete
  rw [decide_eq_true_iff] at hincomplete ⊢
  exact hincomplete.of_subset h.kinds

end Entries

/-- A verdict that no step lacks a closing outlasts every step that is dropped from the list. -/
theorem Report.allOk_of_verdicts {report found : Report}
    (hclasses : report.fairClasses = true → found.fairClasses = true)
    (hanchors : report.fairAnchors = true → found.fairAnchors = true)
    (hcompliance : report.auditCompliance = true → found.auditCompliance = true)
    (hmissing : found.missing.Sublist report.missing) (h : report.allOk = true) :
    found.allOk = true := by
  rw [allOk_iff] at h ⊢
  obtain ⟨hfairClasses, hfairAnchors, hcovered, hnone⟩ := h
  rw [hnone] at hmissing
  exact ⟨hclasses hfairClasses, hanchors hfairAnchors, hcompliance hcovered,
    List.eq_nil_of_sublist_nil hmissing⟩

/-- Relaxing schedule and policy never creates a violation. Of two accepted audits of one ledger,
the second of which asks for no more than the first, every verdict that holds in the first report
holds in the second, the second lists a part of the steps that the first one lists as lacking a
closing, in the same order, and if nothing was wrong before, then nothing is wrong now. -/
theorem audit_relaxed {ledger : List Record} {schedule laterSchedule : Schedule}
    {policy looser : Policy} {report found : Report}
    (hrelaxes : Relaxes schedule policy laterSchedule looser)
    (hreport : audit ledger schedule policy = .ok report)
    (hfound : audit ledger laterSchedule looser = .ok found) :
    (report.fairClasses = true → found.fairClasses = true) ∧
      (report.fairAnchors = true → found.fairAnchors = true) ∧
      (report.auditCompliance = true → found.auditCompliance = true) ∧
      found.missing.Sublist report.missing ∧
      (report.allOk = true → found.allOk = true) := by
  obtain ⟨-, hpolicy, entries, hentries, rfl⟩ := audit_eq_ok_iff.1 hreport
  obtain ⟨-, hlooser, others, hothers, rfl⟩ := audit_eq_ok_iff.1 hfound
  obtain ⟨hclasses, hanchors, hcompliance⟩ := hrelaxes.verdicts hentries hothers
  have hmissing := hrelaxes.missing_sublist hpolicy hlooser hentries hothers
  exact ⟨hclasses, hanchors, hcompliance, hmissing,
    Report.allOk_of_verdicts hclasses hanchors hcompliance hmissing⟩

/-- Three steps are audited twice. The relaxed policy raises the tolerance for classes, requires one
of two kinds, and leaves the interval to its schedule, which asks for checkpoints less often than
the policy before. The classes are fair now, the checkpoints are as close as before, and the step
that lacked the other kind is no longer listed. -/
theorem audit_relaxed_of_interval_in_force :
    let committed (id : String) (t : UInt64) (classId : UInt32) : Record :=
      { kind := some "ace_step", status := some "committed", entryId := some id, t := some t,
        context := some { classId := some classId, coord := some 2050 } }
    let ledger : List Record :=
      [committed "a" 0 1, { kind := some "review", t := some 0, context := some {} },
        committed "b" 1 1, { kind := some "petc", context := some { step := some "b" } },
        .checkpoint 2, committed "c" 2 2]
    let policy : Policy :=
      { classSkewTolerance := 0, auditEvery := 2, perStepKinds := .ofList ["petc", "review"] }
    let looser : Policy := { auditEvery := 0, perStepKinds := .ofList ["review"] }
    let laterSchedule : Schedule := { auditInterval := 3 }
    Relaxes {} policy laterSchedule looser ∧
      ∃ report found, audit ledger {} policy = .ok report ∧
        audit ledger laterSchedule looser = .ok found ∧
        (report.fairClasses, report.fairAnchors, report.auditCompliance) = (false, true, true) ∧
        (found.fairClasses, found.fairAnchors, found.auditCompliance) = (true, true, true) ∧
        report.missing = [.entryId "a", .entryId "b", .entryId "c"] ∧
        found.missing = [.entryId "b", .entryId "c"] ∧ found.missing.Sublist report.missing := by
  intro committed ledger policy looser laterSchedule
  have hrelaxes : Relaxes {} policy laterSchedule looser := by
    refine ⟨by decide, by decide, ?_, .inr ?_⟩
    · intro kind hkind
      rw [OrderedSet.mem_ofList, List.mem_singleton] at hkind
      rw [hkind]
      exact OrderedSet.mem_ofList.2 (by decide)
    · decide
  have hbefore : (audit ledger {} policy).map (fun report =>
      ((report.fairClasses, report.fairAnchors, report.auditCompliance), report.missing)) =
      .ok ((false, true, true), [.entryId "a", .entryId "b", .entryId "c"]) := by
    decide +kernel
  have hlater : (audit ledger laterSchedule looser).map (fun found =>
      ((found.fairClasses, found.fairAnchors, found.auditCompliance), found.missing)) =
      .ok ((true, true, true), [.entryId "b", .entryId "c"]) := by
    decide +kernel
  obtain ⟨report, hreport, heq⟩ := map_eq_ok_iff.1 hbefore
  obtain ⟨found, hfound, heq'⟩ := map_eq_ok_iff.1 hlater
  obtain ⟨hverdicts, hmissing⟩ := Prod.mk.inj heq
  obtain ⟨hverdicts', hmissing'⟩ := Prod.mk.inj heq'
  obtain ⟨-, -, -, hsublist, -⟩ := audit_relaxed hrelaxes hreport hfound
  exact ⟨hrelaxes, report, found, hreport, hfound, hverdicts, hverdicts', hmissing, hmissing',
    hsublist⟩

end LatticeLedger
