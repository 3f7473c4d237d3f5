import LatticeLedger.Proofs.Audit.Reading

/-!
# Records without a say

Steps that were not committed and closings that the policy does not require are held to the contract
of a record, and that is all an audit does with them. Whatever positions, ids, links and places they
carry, and wherever they stand, they give the audit nothing. So a ledger may lose any of them and
gain others, and the report stays as it is.
-/

namespace LatticeLedger

namespace Record

/-- Whether a record has no say in an audit: it is a step whose status is not that of a committed
one, or a closing of the standard kind where the policy does not require that kind. -/
def Silent (policy : Policy) (record : Record) : Prop :=
  (record.kind = some stepKind ∧ record.status ≠ some committedStatus) ∨
    (record.kind = some closingKind ∧ closingKind ∉ policy.perStepKinds)

variable {policy : Policy} {record : Record}

/-- A silent record gives an audit nothing: its kind is that of no checkpoint and of no required
closing, and it is no committed step. -/
theorem Silent.gives (h : record.Silent policy) (hpolicy : policy.check = .ok ()) :
    record.Gives policy .other := by
  rcases h with ⟨hkind, hstatus⟩ | ⟨hkind, hnot⟩
  · have hnot : stepKind ∉ policy.perStepKinds := fun hmem =>
      (policy.not_reserved hpolicy hmem).1 rfl
    have hother : ¬record.isCommittedStep := by
      rw [isCommittedStep, Bool.and_eq_true, beq_iff_eq, beq_iff_eq]
      exact fun hcommitted => hstatus hcommitted.2
    exact .other hkind (by decide) hnot hother
  · have hother : ¬record.isCommittedStep := by
      intro hcommitted
      rw [kind_of_isCommittedStep hcommitted, Option.some.injEq] at hkind
      exact absurd hkind (by decide)
    exact .other hkind (by decide) hnot hother

/-- The kind of a silent record is a standard one. -/
theorem Silent.recognized (h : record.Silent policy) :
    ∃ kind, record.kind = some kind ∧ policy.recognizes kind = true := by
  rcases h with ⟨hkind, -⟩ | ⟨hkind, -⟩
  · exact ⟨stepKind, hkind, Policy.recognizes_iff.2 (.inl rfl)⟩
  · exact ⟨closingKind, hkind, Policy.recognizes_iff.2 (.inr (.inl rfl))⟩

/-- A silent record that keeps the contract of a record is passed over. -/
theorem Silent.entry_eq (h : record.Silent policy) (hpolicy : policy.check = .ok ())
    (hcheck : record.check = .ok ()) : record.entry policy = .ok .other := by
  obtain ⟨kind, hkind, hknown⟩ := h.recognized
  exact entry_of_gives hcheck hkind hknown (h.gives hpolicy)

/-- A record that is read keeps the contract of a record. -/
theorem check_of_entry {found : Entry} (h : record.entry policy = .ok found) :
    record.check = .ok () := by
  obtain ⟨_, hcheck, -⟩ := bind_eq_ok_iff.1 h
  exact mapError_eq_ok_iff.1 hcheck

end Record

/-- How one ledger becomes another by losing silent records and gaining others, at any places. What
is gained has to keep the contract of a record. -/
inductive Policy.Edited (policy : Policy) : List Record → List Record → Prop
  | nil : Edited policy [] []
  | keep {record : Record} {ledger other : List Record} (hrest : Edited policy ledger other) :
    Edited policy (record :: ledger) (record :: other)
  | delete {record : Record} {ledger other : List Record} (hsilent : record.Silent policy)
    (hrest : Edited policy ledger other) : Edited policy (record :: ledger) other
  | insert {record : Record} {ledger other : List Record} (hsilent : record.Silent policy)
    (hcheck : record.check = .ok ()) (hrest : Edited policy ledger other) :
    Edited policy ledger (record :: other)

/-- Whether two lists of entries have the same steps, checkpoints and closings. -/
structure Entry.SameContents (entries others : List Entry) : Prop where
  steps : steps entries = steps others
  checkpoints : checkpoints entries = checkpoints others
  closings : closings entries = closings others

namespace Entry.SameContents

variable {entries others : List Entry}

/-- One more entry in front of both lists leaves them with the same contents. -/
theorem cons (entry : Entry) (h : SameContents entries others) :
    SameContents (entry :: entries) (entry :: others) := by
  obtain ⟨hsteps, hcheckpoints, hclosings⟩ := h
  cases entry with
  | step step => exact ⟨congrArg (step :: ·) hsteps, hcheckpoints, hclosings⟩
  | checkpoint t => exact ⟨hsteps, congrArg (t :: ·) hcheckpoints, hclosings⟩
  | closing closing => exact ⟨hsteps, hcheckpoints, congrArg (closing :: ·) hclosings⟩
  | other => exact ⟨hsteps, hcheckpoints, hclosings⟩

/-- A report is made from steps, checkpoints and closings. -/
theorem report_eq (h : SameContents entries others) (schedule : Schedule) (policy : Policy) :
    Report.ofEntries schedule policy entries = Report.ofEntries schedule policy others := by
  rw [Report.ofEntries, Report.ofEntries, h.steps, h.checkpoints, h.closings]

end Entry.SameContents

/-- A ledger that was edited is read with the same contents. The induction follows the edits: a
record that is kept has the same entry in both ledgers, and every other record has one that adds
nothing. -/
theorem Record.EntriesOf.edited {policy : Policy} {ledger other : List Record}
    {entries : List Entry} (h : EntriesOf policy ledger entries) (hpolicy : policy.check = .ok ())
    (hedited : policy.Edited ledger other) :
    ∃ others, EntriesOf policy other others ∧ Entry.SameContents entries others := by
  induction hedited generalizing entries with
  | nil =>
    cases h
    exact ⟨[], .nil, rfl, rfl, rfl⟩
  | @keep record ledger other _ ih =>
    obtain ⟨entry, rest, hentry, hrest, rfl⟩ := List.forall₂_cons_left_iff.1 h
    obtain ⟨others, hothers, hsame⟩ := ih hrest
    exact ⟨entry :: others, .cons hentry hothers, hsame.cons entry⟩
  | @delete record ledger other hsilent _ ih =>
    obtain ⟨entry, rest, hentry, hrest, rfl⟩ := List.forall₂_cons_left_iff.1 h
    obtain ⟨others, hothers, hsame⟩ := ih hrest
    have hother : record.entry policy = .ok .other :=
      hsilent.entry_eq hpolicy (check_of_entry hentry)
    obtain rfl : entry = .other := Except.ok.inj (hentry.symm.trans hother)
    exact ⟨others, hothers, hsame.steps, hsame.checkpoints, hsame.closings⟩
  | insert hsilent hcheck _ ih =>
    obtain ⟨others, hothers, hsame⟩ := ih h
    have hother := hsilent.entry_eq hpolicy hcheck
    exact ⟨.other :: others, .cons hother hothers, hsame.steps, hsame.checkpoints, hsame.closings⟩

/-- Records without a say cannot influence a report. If an audit accepts a ledger, then it accepts
the ledger after any steps that were not committed, and any closings of the standard kind that the
policy does not require, were taken out or put in, with exactly the same report. Nothing is asked of
what is put in but the contract of a record: its position, its id and its context may be those of a
real step, or make no sense at all. -/
theorem audit_edited {ledger other : List Record} {schedule : Schedule} {policy : Policy}
    {report : Report} (h : audit ledger schedule policy = .ok report)
    (hedited : policy.Edited ledger other) : audit other schedule policy = .ok report := by
  obtain ⟨hschedule, hpolicy, entries, hentries, rfl⟩ := audit_eq_ok_iff.1 h
  obtain ⟨others, hothers, hsame⟩ := hentries.edited hpolicy hedited
  have hreport := hsame.report_eq schedule policy
  exact audit_eq_ok_iff.2 ⟨hschedule, hpolicy, others, hothers, hreport.symm⟩

/-- Two steps, the second of which lacks its closing, and an aborted step at the place of the first.
The aborted step is taken out. An open step is put in that repeats the id and the position of the
first and names a class and a coordinate that do not exist, and a closing is put in that belongs to
the second step but is of a kind that is not required. The second step still lacks its closing. -/
theorem audit_edited_of_impossible_step :
    let committed (id : String) (t : UInt64) (coord : UInt32) : Record :=
      { kind := some "ace_step", status := some "committed", entryId := some id, t := some t,
        context := some { classId := some 5, coord := some coord } }
    let aborted : Record :=
      { kind := some "ace_step", status := some "aborted", t := some 0,
        context := some { classId := some 5, coord := some 1000, step := some "b" } }
    let impossible : Record :=
      { kind := some "ace_step", entryId := some "a", t := some 0,
        context := some { classId := some 96, coord := some 12288, step := some "b" } }
    let unasked : Record :=
      { kind := some "petc", t := some 1, context := some { step := some "b" } }
    let review : Record := { kind := some "review", t := some 0, context := some {} }
    let policy : Policy := { perStepKinds := .ofList ["review"] }
    let ledger := [committed "a" 0 1000, aborted, review, committed "b" 1 7, .checkpoint 2]
    let other :=
      [unasked, committed "a" 0 1000, review, committed "b" 1 7, .checkpoint 2, impossible]
    policy.Edited ledger other ∧
      ∃ report, audit ledger {} policy = .ok report ∧ audit other {} policy = .ok report ∧
        report.totalSteps = 2 ∧ report.missing = [.entryId "b"] := by
  intro committed aborted impossible unasked review policy ledger other
  have hnot : closingKind ∉ policy.perStepKinds := by
    rw [OrderedSet.mem_ofList]
    decide
  have haborted : aborted.Silent policy := .inl ⟨rfl, by decide⟩
  have himpossible : impossible.Silent policy := .inl ⟨rfl, by decide⟩
  have hunasked : unasked.Silent policy := .inr ⟨rfl, hnot⟩
  have hedited : policy.Edited ledger other :=
    .insert hunasked (by decide +kernel) (.keep (.delete haborted (.keep (.keep (.keep
      (.insert himpossible (by decide +kernel) .nil))))))
  have hreport : (audit ledger {} policy).map (fun report => (report.totalSteps, report.missing)) =
      .ok (2, [.entryId "b"]) := by
    decide +kernel
  obtain ⟨report, hreport, heq⟩ := map_eq_ok_iff.1 hreport
  obtain ⟨hsteps, hmissing⟩ := Prod.mk.inj heq
  exact ⟨hedited, report, hreport, audit_edited hreport hedited, hsteps, hmissing⟩

end LatticeLedger
