import LatticeLedger.Proofs.Audit.Faults
import LatticeLedger.Proofs.Guard.Logged

/-!
# What is verified of a logged address

A step that was logged with a coordinate, or with an anchor and an offset, is guarded again when its
ledger is audited, and the numbers logged beside them are compared with the address that results.
Class, coordinate, anchor and offset are compared whichever of them are present. Row and column are
compared only if both are: one of them alone is not looked at, whatever it says.
-/

namespace LatticeLedger

namespace Record

variable {record : Record} {context : LoggedContext}

/-- Of the context of a committed step, nothing but the cell matters. -/
theorem entry_of_cell_eq {other : LoggedContext} (policy : Policy)
    (hcommitted : record.isCommittedStep) (hcontext : record.context = some context)
    (hcell : other.cell record.t = context.cell record.t) :
    ({ record with context := some other } : Record).entry policy = record.entry policy := by
  have hcheck : ({ record with context := some other } : Record).check = record.check := by
    simp only [check, hcontext, Option.isSome_some]
  have hcommittedOther : ({ record with context := some other } : Record).isCommittedStep :=
    hcommitted
  have hstep : ({ record with context := some other } : Record).auditedStep =
      record.auditedStep := by
    simp only [auditedStep, hcontext, demand, bind, Except.bind, hcell]
    rfl
  simp only [entry, entryOfKind, hcheck, hcommitted, hcommittedOther, if_true, hstep]

/-- A committed step with coordinates that is read has been guarded again. -/
theorem exists_reguarded {policy : Policy} {found : Entry} (h : record.entry policy = .ok found)
    (hcommitted : record.isCommittedStep) (hcontext : record.context = some context)
    (hcoordinates : context.hasCoordinates) :
    ∃ guarded, context.reguarded record.t = .ok guarded ∧ context.Restates guarded.address := by
  obtain ⟨step, hstep⟩ := exists_auditedStep h hcommitted
  obtain ⟨logged, cell, _, hlogged, hcell, -⟩ := auditedStep_eq_ok_iff.1 hstep
  obtain rfl := Option.some.inj (hcontext.symm.trans hlogged)
  exact (LoggedContext.exists_cell_iff hcoordinates).1 ⟨cell, hcell⟩

/-- A committed step with coordinates is malformed if it is not guarded again to an address that it
restates. -/
theorem malformed_of_not_reguarded {policy : Policy} (hcommitted : record.isCommittedStep)
    (hcontext : record.context = some context) (hcoordinates : context.hasCoordinates)
    (hnot : ¬∃ guarded, context.reguarded record.t = .ok guarded ∧
      context.Restates guarded.address) : record.Malformed policy := by
  cases hcell : context.cell record.t with
  | ok cell => exact absurd ((LoggedContext.exists_cell_iff hcoordinates).1 ⟨cell, hcell⟩) hnot
  | error fault => exact .misplaced hcommitted hcontext hcell

end Record

/-- A logged address is verified as far as its numbers are compared. In a ledger that an audit
accepts, every committed step with coordinates is guarded again, and each of its numbers that is
compared is that of the address. A step that is refused by the guard or states another number stops
the audit at its entry, if no earlier entry does. Row and column are compared only together: if one
of them is missing, the audit is the same as if both were. -/
theorem logged_numbers_verified (schedule : Schedule) (policy : Policy) :
    (∀ ledger report, audit ledger schedule policy = .ok report →
      ∀ record ∈ ledger, record.isCommittedStep → ∀ context, record.context = some context →
        context.hasCoordinates → ∃ guarded, context.reguarded record.t = .ok guarded ∧
          context.Restates guarded.address) ∧
    ∀ before record after context, record.isCommittedStep → record.context = some context →
      (schedule.check = .ok () → policy.check = .ok () →
        (∀ other ∈ before, ¬other.Malformed policy) → context.hasCoordinates →
        (¬∃ guarded, context.reguarded record.t = .ok guarded ∧
          context.Restates guarded.address) →
        ∃ fault, audit (before ++ record :: after) schedule policy =
          .error (.record before.length fault)) ∧
      (context.row = none ∨ context.col = none →
        audit (before ++ { record with
            context := some { context with row := none, col := none } } :: after) schedule policy =
          audit (before ++ record :: after) schedule policy) := by
  constructor
  · intro ledger report h record hmem hcommitted context hcontext hcoordinates
    obtain ⟨-, -, entries, hentries, -⟩ := audit_eq_ok_iff.1 h
    obtain ⟨entry, hentry⟩ := hentries.exists_entry hmem
    exact Record.exists_reguarded hentry hcommitted hcontext hcoordinates
  intro before record after context hcommitted hcontext
  constructor
  · intro hschedule hpolicy hbefore hcoordinates hnot
    have hmalformed : record.Malformed policy :=
      Record.malformed_of_not_reguarded hcommitted hcontext hcoordinates hnot
    obtain ⟨fault, -, herror⟩ :=
      (Policy.stopsAt_append hbefore hmalformed).audit_eq_error hschedule hpolicy
    exact ⟨fault, herror⟩
  · intro hlone
    refine audit_congr schedule (List.rel_append ?_ (.cons ?_ ?_))
    · exact List.forall₂_same.2 fun _ _ => rfl
    · exact Record.entry_of_cell_eq policy hcommitted hcontext
        (LoggedContext.cell_of_lone hlone).symm
    · exact List.forall₂_same.2 fun _ _ => rfl

/-- Two steps at one coordinate, the first of which is logged with its row and column. If the second
is logged with another row beside the column, the audit stops at it; without the column, it is
audited as if it had been logged without the row. -/
theorem logged_numbers_verified_of_wrong_row :
    let committed (t : UInt64) (context : LoggedContext) : Record :=
      { kind := some "ace_step", status := some "committed", t := some t, context := some context }
    let context : LoggedContext := { classId := some 1, coord := some 1000 }
    let right := committed 0 { context with row := some 3, col := some 232 }
    let wrong := committed 1 { context with row := some 9, col := some 232 }
    let lone := committed 1 { context with row := some 9 }
    (∃ report, audit [right] {} {} = .ok report) ∧
      (∃ guarded, LoggedContext.reguarded { context with row := some 3, col := some 232 } (some 0) =
          .ok guarded ∧ guarded.address.number .row = 3 ∧ guarded.address.number .col = 232) ∧
      (∃ fault, audit [right, wrong] {} {} = .error (.record 1 fault)) ∧
      audit [right, lone] {} {} = audit [right, committed 1 context] {} {} := by
  intro committed context right wrong lone
  obtain ⟨hverified, hothers⟩ := logged_numbers_verified {} {}
  have hschedule : Schedule.check {} = .ok () := by decide +kernel
  have hpolicy : Policy.check {} = .ok () := by decide +kernel
  have haccepted : (audit [right] {} {}).map (·.totalSteps) = .ok 1 := by decide +kernel
  have hrow : (LoggedContext.reguarded { context with row := some 9, col := some 232 }
      (some 1)).map (·.address.number .row) = .ok 3 := by decide +kernel
  obtain ⟨report, hreport, -⟩ := map_eq_ok_iff.1 haccepted
  have hright : ∀ other ∈ [right], ¬other.Malformed {} := by
    intro other hmem hmalformed
    obtain ⟨error, herror⟩ :=
      (exists_audit_eq_error_iff hschedule hpolicy).2 ⟨other, hmem, hmalformed⟩
    exact absurd (hreport.symm.trans herror) nofun
  obtain ⟨guarded, hguarded, hrestates⟩ :=
    hverified [right] report hreport right (List.mem_singleton_self right) rfl _ rfl rfl
  obtain ⟨hwrong, -⟩ := hothers [right] wrong [] _ rfl rfl
  obtain ⟨-, hlone⟩ := hothers [right] lone [] _ rfl rfl
  refine ⟨⟨report, hreport⟩, ⟨guarded, hguarded, ?_, ?_⟩, ?_, (hlone (.inr rfl)).symm⟩
  · exact (hrestates .row 3 rfl fun _ => ⟨rfl, rfl⟩).symm
  · exact (hrestates .col 232 rfl fun _ => ⟨rfl, rfl⟩).symm
  refine hwrong hschedule hpolicy hright rfl ?_
  rintro ⟨found, hfound, hrestated⟩
  have hnine := hrestated .row 9 rfl fun _ => ⟨rfl, rfl⟩
  rw [hfound] at hrow
  exact absurd (hnine.trans (Except.ok.inj hrow)) (by decide)

/-- A row that was logged without its column is believed: the step at coordinate 1000 states row 9,
its address has row 3, and the audit finds nothing wrong. -/
theorem lone_row_unverified :
    let context : LoggedContext := { classId := some 1, coord := some 1000, row := some 9 }
    let record : Record :=
      { kind := some "ace_step", status := some "committed", t := some 0, context := some context }
    ∃ report guarded, audit [record] {} { perStepKinds := ∅ } = .ok report ∧
      report.allOk = true ∧ context.reguarded record.t = .ok guarded ∧
      guarded.address.number .row = 3 := by
  intro context record
  have hverdict : (audit [record] {} { perStepKinds := ∅ }).map (·.allOk) = .ok true := by
    decide +kernel
  have hrow : (context.reguarded record.t).map (·.address.number .row) = .ok 3 := by
    decide +kernel
  obtain ⟨report, hreport, hallOk⟩ := map_eq_ok_iff.1 hverdict
  obtain ⟨guarded, hguarded, hnumber⟩ := map_eq_ok_iff.1 hrow
  exact ⟨report, guarded, hreport, hallOk, hguarded, hnumber⟩

end LatticeLedger
