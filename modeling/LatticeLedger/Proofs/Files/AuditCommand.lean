import LatticeLedger.Proofs.Audit.Faults
import LatticeLedger.Proofs.Audit.ReportRoundTrip
import LatticeLedger.Proofs.Files.Loading
import LatticeLedger.Proofs.Json.Extent
import LatticeLedger.Proofs.Ledger.FileRoundTrip

/-!
# The audit of files

An audit of files loads the ledger, the schedule and the audit bundle and then audits. It succeeds
exactly if each of these four stages does, whatever the files hold, and otherwise the message opens
with the name of the first stage that fails. What it prints is the report and can be read back. The
contracts that an audit holds its schedule and its policy to were kept when these were loaded, so
only a record can still make it fail.
-/

namespace LatticeLedger

/-! ### What files give -/

/-- Whether a text is that of a ledger. -/
def Ledger.FileGives (text : String) (records : List Record) : Prop := parse? text = some records

/-- Whether a text is that of a schedule that keeps its contract. -/
def Schedule.FileGives (text : String) (schedule : Schedule) : Prop :=
  (Toml.parse? text).bind ofToml? = some schedule ∧ schedule.check = .ok ()

/-- Whether a text is that of a bundle with a policy that keeps its contract, and with the sizes of
the lattice where it declares any. -/
def Policy.FileGives (text : String) (policy : Policy) : Prop :=
  ∃ bundle, (Toml.parse? text).bind Bundle.ofToml? = some bundle ∧
    bundle.indexing.check = .ok () ∧ bundle.policy = policy ∧ policy.check = .ok ()

/-- A text is read as a ledger exactly if it is the text of one. -/
theorem Ledger.ofFileText_eq_ok_iff {text : String} {records : List Record} :
    ofFileText text = .ok records ↔ FileGives text records := by
  rw [ofFileText, FileGives]
  cases parse? text <;> simp

/-- A text is read as a schedule exactly if it is the text of one that keeps its contract. -/
theorem Schedule.ofFileText_eq_ok_iff {text : String} {schedule : Schedule} :
    ofFileText text = .ok schedule ↔ FileGives text schedule := by
  rw [ofFileText, FileGives]
  cases (Toml.parse? text).bind ofToml? with
  | none => simp
  | some found =>
    rw [mapError_eq_ok_iff, checked, bind_return_eq_ok_iff, Option.some_inj]
    constructor
    · rintro ⟨hcheck, rfl⟩
      exact ⟨rfl, hcheck⟩
    · rintro ⟨rfl, hcheck⟩
      exact ⟨hcheck, rfl⟩

/-- A text is read as a policy exactly if it is the text of a bundle with that policy. -/
theorem Policy.ofFileText_eq_ok_iff {text : String} {policy : Policy} :
    ofFileText text = .ok policy ↔ FileGives text policy := by
  rw [ofFileText, FileGives]
  cases (Toml.parse? text).bind Bundle.ofToml? with
  | none => simp
  | some bundle =>
    simp only [Option.some.injEq, exists_eq_left', Bundle.policyChecked]
    rw [bind_eq_ok_iff]
    simp only [mapError_eq_ok_iff, checked, bind_return_eq_ok_iff]
    constructor
    · rintro ⟨_, hsizes, hcheck, rfl⟩
      exact ⟨hsizes, rfl, hcheck⟩
    · rintro ⟨hsizes, rfl, hcheck⟩
      exact ⟨(), hsizes, hcheck, rfl⟩

namespace Directory

variable {α : Type}

/-- Whether a file can be read and gives a value. -/
def Holds (directory : Directory) (gives : String → α → Prop) (path : String) (value : α) : Prop :=
  ∃ text, directory.readText path = .ok text ∧ gives text value

/-- Whether a file gives a value, or no file is named and the value is the standard one. -/
def HoldsOr (directory : Directory) (standard : α) (gives : String → α → Prop) :
    Option String → α → Prop
  | none, value => standard = value
  | some path, value => directory.Holds gives path value

/-- A value is loaded exactly if the directory holds a file that gives it. -/
theorem loaded_eq_ok_iff_holds {ε : Type} {directory : Directory} {parse : String → Except ε α}
    {gives : String → α → Prop} {path : String} {value : α}
    (hparse : ∀ {text value}, parse text = .ok value ↔ gives text value) :
    directory.loaded parse path = .ok value ↔ directory.Holds gives path value := by
  rw [loaded_eq_ok_iff, Holds]
  exact exists_congr fun text => and_congr_right fun _ => hparse

/-- A value is loaded, or stands for no path, exactly if it is the one that the directory holds or
the standard one. -/
theorem loadedOr_eq_ok_iff {ε : Type} {directory : Directory} {standard : α}
    {parse : String → Except ε α} {gives : String → α → Prop} {path? : Option String} {value : α}
    (hparse : ∀ {text value}, parse text = .ok value ↔ gives text value) :
    directory.loadedOr standard parse path? = .ok value ↔
      directory.HoldsOr standard gives path? value := by
  cases path? with
  | none => exact ⟨Except.ok.inj, congrArg Except.ok⟩
  | some path => exact loaded_eq_ok_iff_holds hparse

/-- What holds of the standard value and of every value that a text gives holds of the value. -/
theorem HoldsOr.elim {directory : Directory} {standard value : α} {gives : String → α → Prop}
    {path? : Option String} {p : α → Prop} (h : directory.HoldsOr standard gives path? value)
    (hstandard : p standard) (hgives : ∀ text value, gives text value → p value) : p value := by
  cases path? with
  | none =>
    obtain rfl := h
    exact hstandard
  | some path =>
    obtain ⟨text, -, hvalue⟩ := h
    exact hgives text value hvalue

/-- What an audit of files is given: the ledger by its file, the schedule and the policy by theirs
or by default. -/
structure Supplies (directory : Directory) (ledger : String) (schedule? bundle? : Option String)
    (records : List Record) (schedule : Schedule) (policy : Policy) : Prop where
  ledger : directory.Holds Ledger.FileGives ledger records
  schedule : directory.HoldsOr {} Schedule.FileGives schedule? schedule
  policy : directory.HoldsOr {} Policy.FileGives bundle? policy

variable {directory : Directory} {ledger : String} {schedule? bundle? : Option String}
  {records : List Record} {schedule : Schedule} {policy : Policy}

/-- A schedule and a policy keep their contracts, loaded or not. -/
theorem Supplies.checks (h : directory.Supplies ledger schedule? bundle? records schedule policy) :
    schedule.check = .ok () ∧ policy.check = .ok () := by
  constructor
  · apply h.schedule.elim
    · decide +kernel
    · rintro text found ⟨-, hcheck⟩
      exact hcheck
  · apply h.policy.elim
    · decide +kernel
    · rintro text found ⟨bundle, -, -, -, hcheck⟩
      exact hcheck

/-- The report on the records of a file that is shorter than `2 ^ 64` characters has counts of 64
bits. -/
theorem Supplies.fits {report : Report} {text : String}
    (h : directory.Supplies ledger schedule? bundle? records schedule policy)
    (hreport : audit records schedule policy = .ok report)
    (hread : directory.readText ledger = .ok text) (hlength : text.length < UInt64.size) :
    report.Fits := by
  obtain ⟨found, hfound, hrecords⟩ := h.ledger
  obtain rfl := Except.ok.inj (hread.symm.trans hfound)
  have hle := Ledger.length_le_of_parse? hrecords
  exact fits_of_audit hreport (Nat.lt_of_le_of_lt hle hlength)

end Directory

/-! ### What is printed -/

/-- Whether an output is that of a report: its text, and the verdict on fairness, checkpoints and
closings. Coverage has no say in it. -/
structure Output.Reports (output : Output) (report : Report) : Prop where
  text : output.text = report.text
  passed : output.passed = true ↔ report.fairClasses = true ∧ report.fairAnchors = true ∧
    report.auditCompliance = true ∧ report.missing = []

/-- The output of a report is its text together with its verdict. -/
theorem Output.reports_iff {output : Output} {report : Report} :
    output.Reports report ↔ { text := report.text, passed := report.allOk } = output := by
  constructor
  · rintro ⟨htext, hpassed⟩
    have hverdict : report.allOk = output.passed :=
      Bool.eq_iff_iff.2 (Report.allOk_iff.trans hpassed.symm)
    rw [← htext, hverdict]
  · rintro rfl
    exact ⟨rfl, Report.allOk_iff⟩

/-! ### Which stage fails -/

/-- The stages of an audit of files. -/
inductive AuditStage
  | ledger
  | schedule
  | bundle
  | audit

namespace AuditStage

/-- The stages in their order. -/
def inOrder : List AuditStage := [ledger, schedule, bundle, audit]

/-- The words with which a failure in a stage is reported. -/
def opening : AuditStage → String
  | ledger => "failed to load ledger: "
  | schedule => "failed to load schedule: "
  | bundle => "failed to load audit bundle: "
  | audit => "audit failed: "

/-- Whether a message is that of a failure in a stage. -/
def Opens (stage : AuditStage) (message : String) : Prop := ∃ rest, message = stage.opening ++ rest

/-- No message opens with the words of two stages. -/
theorem eq_of_opens {stage other : AuditStage} {message : String} (hstage : stage.Opens message)
    (hother : other.Opens message) : stage = other := by
  obtain ⟨rest, rfl⟩ := hstage
  obtain ⟨more, heq⟩ := hother
  have hchars : stage.opening.toList ++ rest.toList = other.opening.toList ++ more.toList := by
    rw [← String.toList_append, heq, String.toList_append]
  have hfirst : stage.opening.toList <+: stage.opening.toList ++ rest.toList :=
    List.prefix_append _ _
  have hsecond : other.opening.toList <+: stage.opening.toList ++ rest.toList :=
    hchars ▸ List.prefix_append _ _
  rcases List.prefix_or_prefix_of_prefix hfirst hsecond with h | h
  all_goals
    cases stage <;> cases other <;> first | rfl | exact absurd h (by decide +kernel)

variable (directory : Directory) (ledger : String) (schedule? bundle? : Option String)

/-- Whether a stage can be passed: a file is loaded, or is not named, and the audit needs all that
the other stages give. -/
def Succeeds : AuditStage → Prop
  | .ledger => ∃ records, directory.Holds Ledger.FileGives ledger records
  | .schedule => ∃ schedule, directory.HoldsOr {} Schedule.FileGives schedule? schedule
  | .bundle => ∃ policy, directory.HoldsOr {} Policy.FileGives bundle? policy
  | .audit => ∃ records schedule policy report,
      directory.Supplies ledger schedule? bundle? records schedule policy ∧
        LatticeLedger.audit records schedule policy = .ok report

/-- Whether a stage fails and every stage before it succeeds. -/
def FirstToFail (stage : AuditStage) : Prop :=
  ∃ before after, inOrder = before ++ stage :: after ∧
    (∀ earlier ∈ before, earlier.Succeeds directory ledger schedule? bundle?) ∧
      ¬stage.Succeeds directory ledger schedule? bundle?

end AuditStage

namespace Command

variable {directory : Directory} {ledger : String} {schedule? bundle? : Option String}

/-- An audit of files as a function of what they hold. -/
def auditFiles (directory : Directory) (ledger : String) (schedule? bundle? : Option String) :
    Except CommandError Output := do
  let records ← (directory.loaded Ledger.ofFileText ledger).mapError .ledger
  let schedule ← (directory.loadedOr {} Schedule.ofFileText schedule?).mapError .schedule
  let policy ← (directory.loadedOr {} Policy.ofFileText bundle?).mapError .bundle
  let report ← (LatticeLedger.audit records schedule policy).mapError .audit
  return { text := report.text, passed := report.allOk }

/-- The command gives what the files say and changes none of them. -/
theorem run_audit :
    (run (.audit ledger schedule? bundle?) :
      ExceptT CommandError (StateM Directory) Output).run.run directory =
        (auditFiles directory ledger schedule? bundle?, directory) := by
  refine run_stage run_load fun records => ?_
  refine run_stage run_loadOr fun schedule => ?_
  refine run_stage run_loadOr fun policy => ?_
  cases LatticeLedger.audit records schedule policy <;> rfl

/-! The stages that load, each with the error that reports its failure. -/

/-- The first stage gives exactly the records of the ledger file. -/
theorem loadLedger_eq_ok_iff {records : List Record} :
    (directory.loaded Ledger.ofFileText ledger).mapError CommandError.ledger = .ok records ↔
      directory.Holds Ledger.FileGives ledger records :=
  mapError_eq_ok_iff.trans (Directory.loaded_eq_ok_iff_holds Ledger.ofFileText_eq_ok_iff)

/-- The second stage gives exactly the schedule of its file, or the standard one. -/
theorem loadSchedule_eq_ok_iff {schedule : Schedule} :
    (directory.loadedOr {} Schedule.ofFileText schedule?).mapError CommandError.schedule =
        .ok schedule ↔ directory.HoldsOr {} Schedule.FileGives schedule? schedule :=
  mapError_eq_ok_iff.trans (Directory.loadedOr_eq_ok_iff Schedule.ofFileText_eq_ok_iff)

/-- The third stage gives exactly the policy of the bundle, or the standard one. -/
theorem loadBundle_eq_ok_iff {policy : Policy} :
    (directory.loadedOr {} Policy.ofFileText bundle?).mapError CommandError.bundle =
        .ok policy ↔ directory.HoldsOr {} Policy.FileGives bundle? policy :=
  mapError_eq_ok_iff.trans (Directory.loadedOr_eq_ok_iff Policy.ofFileText_eq_ok_iff)

/-- An audit of files succeeds exactly if each stage does, and its output is that of the report. -/
theorem auditFiles_eq_ok_iff {output : Output} :
    auditFiles directory ledger schedule? bundle? = .ok output ↔
      ∃ records schedule policy report,
        directory.Supplies ledger schedule? bundle? records schedule policy ∧
          LatticeLedger.audit records schedule policy = .ok report ∧ output.Reports report := by
  constructor
  · intro h
    obtain ⟨records, hrecords, h⟩ := bind_eq_ok_iff.1 h
    obtain ⟨schedule, hschedule, h⟩ := bind_eq_ok_iff.1 h
    obtain ⟨policy, hpolicy, h⟩ := bind_eq_ok_iff.1 h
    obtain ⟨report, hreport, h⟩ := bind_eq_ok_iff.1 h
    have hsupplies : directory.Supplies ledger schedule? bundle? records schedule policy :=
      ⟨loadLedger_eq_ok_iff.1 hrecords, loadSchedule_eq_ok_iff.1 hschedule,
        loadBundle_eq_ok_iff.1 hpolicy⟩
    exact ⟨records, schedule, policy, report, hsupplies, mapError_eq_ok_iff.1 hreport,
      Output.reports_iff.2 (Except.ok.inj h)⟩
  · rintro ⟨records, schedule, policy, report, hsupplies, hreport, houtput⟩
    refine bind_eq_ok_iff.2 ⟨records, loadLedger_eq_ok_iff.2 hsupplies.ledger, ?_⟩
    refine bind_eq_ok_iff.2 ⟨schedule, loadSchedule_eq_ok_iff.2 hsupplies.schedule, ?_⟩
    refine bind_eq_ok_iff.2 ⟨policy, loadBundle_eq_ok_iff.2 hsupplies.policy, ?_⟩
    refine bind_eq_ok_iff.2 ⟨report, mapError_eq_ok_iff.2 hreport, ?_⟩
    exact congrArg Except.ok (Output.reports_iff.1 houtput)

/-- An audit on supplied files fails with the fault of a record, since nothing else is left. -/
theorem audit_eq_error_of_supplies {records : List Record} {schedule : Schedule} {policy : Policy}
    {error : AuditError}
    (h : directory.Supplies ledger schedule? bundle? records schedule policy)
    (herror : LatticeLedger.audit records schedule policy = .error error) :
    ∃ index fault, error = .record index fault := by
  obtain ⟨hschedule, hpolicy⟩ := h.checks
  obtain ⟨index, _, fault, -, -, heq⟩ :=
    entriesFrom_eq_error ((audit_eq_error_iff hschedule hpolicy).1 herror)
  exact ⟨_, fault, heq⟩

/-- What there is to say of an audit of files that fails in a stage: no earlier stage fails, the
message opens with the words of the stage, and if the stage is the audit, a record is at fault. -/
structure FailsIn (directory : Directory) (ledger : String) (schedule? bundle? : Option String)
    (error : CommandError) (stage : AuditStage) : Prop where
  first : stage.FirstToFail directory ledger schedule? bundle?
  opens : stage.Opens error.message
  fault : stage = .audit → ∃ records schedule policy index fault,
    directory.Supplies ledger schedule? bundle? records schedule policy ∧
      LatticeLedger.audit records schedule policy = .error (.record index fault) ∧
      error = .audit (.record index fault)

/-- A stage that gives no value can be passed with none. -/
theorem not_exists_of_eq_error {ε α : Type} {stage : Except ε α} {gives : α → Prop} {error : ε}
    (hgives : ∀ {value}, stage = .ok value ↔ gives value) (h : stage = .error error) :
    ¬∃ value, gives value := by
  rintro ⟨value, hvalue⟩
  rw [← hgives, h] at hvalue
  cases hvalue

/-- An audit of files that fails does so in one of its stages. The cases are those of the sequence:
what the stages before gave is at hand in each of them. -/
theorem exists_failsIn {error : CommandError}
    (h : auditFiles directory ledger schedule? bundle? = .error error) :
    ∃ stage, FailsIn directory ledger schedule? bundle? error stage := by
  rcases bind_eq_error_iff.1 h with hfailed | ⟨records, hrecords, hrest⟩
  · obtain ⟨found, -, rfl⟩ := mapError_eq_error_iff.1 hfailed
    have hnone := not_exists_of_eq_error loadLedger_eq_ok_iff hfailed
    exact ⟨.ledger, ⟨[], _, rfl, nofun, hnone⟩, ⟨_, rfl⟩, nofun⟩
  have hledger := loadLedger_eq_ok_iff.1 hrecords
  rcases bind_eq_error_iff.1 hrest with hfailed | ⟨schedule, hsome, hrest⟩
  · obtain ⟨found, -, rfl⟩ := mapError_eq_error_iff.1 hfailed
    have hnone := not_exists_of_eq_error loadSchedule_eq_ok_iff hfailed
    have hbefore : ∀ earlier ∈ [AuditStage.ledger],
        earlier.Succeeds directory ledger schedule? bundle? :=
      List.forall_mem_singleton.2 ⟨records, hledger⟩
    exact ⟨.schedule, ⟨_, _, rfl, hbefore, hnone⟩, ⟨_, rfl⟩, nofun⟩
  have hschedule := loadSchedule_eq_ok_iff.1 hsome
  rcases bind_eq_error_iff.1 hrest with hfailed | ⟨policy, hsome, hrest⟩
  · obtain ⟨found, -, rfl⟩ := mapError_eq_error_iff.1 hfailed
    have hnone := not_exists_of_eq_error loadBundle_eq_ok_iff hfailed
    have hbefore : ∀ earlier ∈ [AuditStage.ledger, .schedule],
        earlier.Succeeds directory ledger schedule? bundle? :=
      List.forall_mem_cons.2
        ⟨⟨records, hledger⟩, List.forall_mem_singleton.2 ⟨schedule, hschedule⟩⟩
    exact ⟨.bundle, ⟨_, _, rfl, hbefore, hnone⟩, ⟨_, rfl⟩, nofun⟩
  have hpolicy := loadBundle_eq_ok_iff.1 hsome
  have hsupplies : directory.Supplies ledger schedule? bundle? records schedule policy :=
    ⟨hledger, hschedule, hpolicy⟩
  rcases bind_eq_error_iff.1 hrest with hfailed | ⟨report, -, hrest⟩
  · obtain ⟨found, hfound, rfl⟩ := mapError_eq_error_iff.1 hfailed
    obtain ⟨index, fault, rfl⟩ := audit_eq_error_of_supplies hsupplies hfound
    have hnone : ¬AuditStage.audit.Succeeds directory ledger schedule? bundle? := by
      rintro ⟨_, _, _, report, hother, hreport⟩
      have hok :=
        auditFiles_eq_ok_iff.2 ⟨_, _, _, report, hother, hreport, Output.reports_iff.2 rfl⟩
      rw [h] at hok
      cases hok
    have hbefore : ∀ earlier ∈ [AuditStage.ledger, .schedule, .bundle],
        earlier.Succeeds directory ledger schedule? bundle? := by
      refine List.forall_mem_cons.2 ⟨⟨records, hledger⟩, ?_⟩
      exact List.forall_mem_cons.2
        ⟨⟨schedule, hschedule⟩, List.forall_mem_singleton.2 ⟨policy, hpolicy⟩⟩
    exact ⟨.audit, ⟨_, _, rfl, hbefore, hnone⟩, ⟨_, rfl⟩, fun _ =>
      ⟨records, schedule, policy, index, fault, hsupplies, hfound, rfl⟩⟩
  · cases hrest

/-- The audit of files is exactly to load, to parse and to audit, whatever the files hold and
however many of them are broken, and it changes no file. It gives an output if and only if the
ledger file gives records, the schedule and the bundle give a schedule and a policy or are not
named, and the audit of these gives a report; the output is then that of the report. It reads back
as the report if the text of the ledger has fewer than `2 ^ 64` characters, as every text in memory
has. Otherwise the message opens with the words of exactly one stage, which is the first to fail. A
failed audit is always the fault of a record, because the schedule and the policy keep their
contracts, loaded or not. -/
theorem audit_files_exact (directory : Directory) (ledger : String)
    (schedule? bundle? : Option String) :
    ∃ result,
      (run (.audit ledger schedule? bundle?) :
        ExceptT CommandError (StateM Directory) Output).run.run directory = (result, directory) ∧
      (∀ output, result = .ok output ↔ ∃ records schedule policy report,
        directory.Supplies ledger schedule? bundle? records schedule policy ∧
          LatticeLedger.audit records schedule policy = .ok report ∧ output.Reports report) ∧
      (∀ records schedule policy report text,
        directory.Supplies ledger schedule? bundle? records schedule policy →
        LatticeLedger.audit records schedule policy = .ok report →
        directory.readText ledger = .ok text → text.length < UInt64.size →
          ∃ output, result = .ok output ∧ Report.parse? output.text = some report) ∧
      (∀ error, result = .error error → ∃ stage : AuditStage,
        stage.FirstToFail directory ledger schedule? bundle? ∧
          ∀ other : AuditStage, other.Opens error.message ↔ other = stage) ∧
      (∀ error, result = .error error → AuditStage.audit.Opens error.message →
        ∃ records schedule policy index fault,
          directory.Supplies ledger schedule? bundle? records schedule policy ∧
            LatticeLedger.audit records schedule policy = .error (.record index fault) ∧
            error = .audit (.record index fault)) ∧
      ∀ records schedule policy,
        directory.Supplies ledger schedule? bundle? records schedule policy →
          schedule.check = .ok () ∧ policy.check = .ok () := by
  refine ⟨auditFiles directory ledger schedule? bundle?, run_audit,
    fun output => auditFiles_eq_ok_iff, ?_, ?_, ?_, ?_⟩
  · intro records schedule policy report text hsupplies hreport hread hlength
    have houtput : ({ text := report.text, passed := report.allOk } : Output).Reports report :=
      Output.reports_iff.2 rfl
    have hfits : report.Fits := hsupplies.fits hreport hread hlength
    exact ⟨_, auditFiles_eq_ok_iff.2 ⟨_, _, _, report, hsupplies, hreport, houtput⟩,
      Report.parse?_text hfits⟩
  · intro error herror
    obtain ⟨stage, hfails⟩ := exists_failsIn herror
    refine ⟨stage, hfails.first, fun other => ⟨fun h => AuditStage.eq_of_opens h hfails.opens, ?_⟩⟩
    rintro rfl
    exact hfails.opens
  · intro error herror hopens
    obtain ⟨stage, hfails⟩ := exists_failsIn herror
    exact hfails.fault (AuditStage.eq_of_opens hfails.opens hopens)
  · intro records schedule policy hsupplies
    exact hsupplies.checks

/-- A directory holds the ledger of two steps of which one lacks its closing, and the file of a
schedule without windows. The audit by default prints a report that fails; with the schedule it is
the schedule that is named, although the bundle is not there at all. -/
theorem audit_files_exact_of_broken_schedule :
    let step (t : UInt64) (coord : UInt32) : Record :=
      { kind := some "ace_step", status := some "committed", t := some t,
        context := some { classId := some 1, coord := some coord } }
    let records : List Record :=
      [step 0 7, { kind := some "petc", t := some 0, context := some {} }, step 1 8]
    let directory : Directory :=
      ⟨.ofList [("a.json", (Ledger.text records).toUTF8),
        ("b.toml", "[schedule]\nwindow_count = 0".toUTF8)]⟩
    ∃ output report error,
      (run (.audit "a.json" none none) :
        ExceptT CommandError (StateM Directory) Output).run.run directory =
          (.ok output, directory) ∧
      output.passed = false ∧ report.missing = [.position 1] ∧
      (Ledger.text records).length < UInt64.size ∧ Report.parse? output.text = some report ∧
      (run (.audit "a.json" (some "b.toml") (some "c.toml")) :
        ExceptT CommandError (StateM Directory) Output).run.run directory =
          (.error error, directory) ∧
      ∀ stage : AuditStage, stage.Opens error.message ↔ stage = .schedule := by
  intro step records directory
  have hresolve (directory : Directory) :
      directory.resolve "a.json" = .ok (.entry .here "a.json") ∧
        directory.resolve "b.toml" = .ok (.entry .here "b.toml") := by
    have hledger : "a.json".contains '\x00' = false := by simp
    have hschedule : "b.toml".contains '\x00' = false := by simp
    have hempty : ({} : Directory).resolve "a.json" = .ok (.entry .here "a.json") ∧
        ({} : Directory).resolve "b.toml" = .ok (.entry .here "b.toml") := by
      rw [Directory.resolve, Directory.resolve, hledger, hschedule]
      decide +kernel
    exact ⟨Directory.resolve_eq_ok hempty.1, Directory.resolve_eq_ok hempty.2⟩
  have hread : directory.readText "a.json" = .ok (Ledger.text records) :=
    Directory.readText_of_get? (hresolve directory).1 (by decide +kernel) (by decide +kernel)
      (OrderedMap.get?_eq_some_iff.2 ((OrderedMap.mem_ofList (by simp)).2 (by simp)))
  have hbroken : directory.readText "b.toml" = .ok "[schedule]\nwindow_count = 0" :=
    Directory.readText_of_get? (hresolve directory).2 (by decide +kernel) (by decide +kernel)
      (OrderedMap.get?_eq_some_iff.2 ((OrderedMap.mem_ofList (by simp)).2 (by simp)))
  have hlength : (Ledger.text records).length < UInt64.size := by
    rw [Ledger.text, Json.Value.prettyText, String.length_ofList]
    decide +kernel
  have hledger : directory.Holds Ledger.FileGives "a.json" records :=
    ⟨_, hread, Ledger.parse?_text records⟩
  have hsupplies : directory.Supplies "a.json" none none records {} {} := ⟨hledger, rfl, rfl⟩
  have hverdict : (LatticeLedger.audit records {} {}).map (fun report =>
      (report.allOk, report.missing)) = .ok (false, [.position 1]) := by
    decide +kernel
  obtain ⟨report, hreport, hfields⟩ := map_eq_ok_iff.1 hverdict
  obtain ⟨hfails, hmissing⟩ := Prod.mk.inj hfields
  obtain ⟨_, hrun, hok, hback, -⟩ := audit_files_exact directory "a.json" none none
  obtain ⟨output, rfl, hparse⟩ := hback _ _ _ report _ hsupplies hreport hread hlength
  have houtput := (hok _).2 ⟨_, _, _, report, hsupplies, hreport, Output.reports_iff.2 rfl⟩
  -- The schedule is loaded before the bundle, so it is the one that is reported.
  have hschedule : Schedule.ofFileText "[schedule]\nwindow_count = 0" =
      .error (.violation (.flawed "schedule_config.window_count" .notPositive)) := by
    decide +kernel
  have hloaded : directory.loaded Schedule.ofFileText "b.toml" =
      .error (.content (.violation (.flawed "schedule_config.window_count" .notPositive))) := by
    rw [Directory.loaded_of_readText hbroken, hschedule, mapError_error]
  have herror : auditFiles directory "a.json" (some "b.toml") (some "c.toml") = .error (.schedule
      (.content (.violation (.flawed "schedule_config.window_count" .notPositive)))) := by
    refine bind_eq_error_iff.2 (.inr ⟨records, loadLedger_eq_ok_iff.2 hledger, ?_⟩)
    exact bind_eq_error_iff.2 (.inl (mapError_eq_error_iff.2 ⟨_, hloaded, rfl⟩))
  obtain ⟨_, hstopped, -, -, hnamed, -⟩ :=
    audit_files_exact directory "a.json" (some "b.toml") (some "c.toml")
  rw [run_audit, herror] at hstopped
  obtain ⟨rfl, -⟩ := Prod.mk.inj hstopped
  obtain ⟨stage, -, hstage⟩ := hnamed _ rfl
  obtain rfl := (hstage .schedule).1 ⟨_, rfl⟩
  refine ⟨output, report, _, hrun, ?_, hmissing, hlength, hparse, ?_, hstage⟩
  · rw [Except.ok.inj houtput]
    exact hfails
  · rw [run_audit, herror]

end Command

end LatticeLedger
