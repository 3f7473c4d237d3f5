import LatticeLedger.Proofs.Audit.Reading

/-!
# Which steps lack a closing

A step is complete if the ledger holds, anywhere, a closing of every required kind that belongs
to it by position or by id. The audit answers this from two lists that it made while reading, one
of the committed steps and one of the closings. The statements here are about the ledger itself:
what a step lacks is said of its record and of the other records.
-/

namespace LatticeLedger

/-- Whether a record belongs to a step: both carry the same position, or the record names the
step's id. -/
def Record.Closes (closing step : Record) : Prop :=
  (closing.t.isSome ∧ closing.t = step.t) ∨ (closing.link.isSome ∧ closing.link = step.entryId)

/-- A required kind of which no record in the ledger belongs to the step. -/
def Policy.Lacks (policy : Policy) (ledger : List Record) (step : Record) (kind : String) : Prop :=
  kind ∈ policy.perStepKinds ∧ ∀ record ∈ ledger, record.kind = some kind → ¬record.Closes step

/-- A committed step that lacks some kind of closing. -/
def Policy.Incomplete (policy : Policy) (ledger : List Record) (step : Record) : Prop :=
  step.isCommittedStep ∧ ∃ kind, policy.Lacks ledger step kind

instance (closing step : Record) : Decidable (closing.Closes step) :=
  inferInstanceAs (Decidable (_ ∨ _))

instance (policy : Policy) (ledger : List Record) (step : Record) :
    Decidable (∃ kind, policy.Lacks ledger step kind) :=
  inferInstanceAs (Decidable (∃ kind ∈ policy.perStepKinds.toList,
    ∀ record ∈ ledger, record.kind = some kind → ¬record.Closes step))

instance (policy : Policy) (ledger : List Record) (step : Record) :
    Decidable (policy.Incomplete ledger step) :=
  inferInstanceAs (Decidable (_ ∧ _))

namespace Record.EntriesOf

variable {policy : Policy} {ledger : List Record} {entries : List Entry}

/-- The steps among the entries are those of the committed records. -/
theorem steps (h : EntriesOf policy ledger entries) :
    List.Forall₂ (fun record step => record.auditedStep = .ok step)
      (ledger.filter (·.isCommittedStep)) (Entry.steps entries) := by
  induction h with
  | nil => exact .nil
  | cons hentry _ ih =>
    cases gives_of_entry hentry with
    | checkpoint _ _ hother => rwa [List.filter_cons_of_neg hother]
    | step hcommitted hstep =>
      rw [List.filter_cons_of_pos hcommitted]
      exact .cons hstep ih
    | closing _ _ _ hother => rwa [List.filter_cons_of_neg hother]
    | other _ _ _ hother => rwa [List.filter_cons_of_neg hother]

/-- The checkpoints among the entries are the positions of the records of their kind. -/
theorem checkpoints (h : EntriesOf policy ledger entries) :
    List.Forall₂ (fun record t => record.t = some t)
      (ledger.filter fun record => record.kind = some checkpointKind)
      (Entry.checkpoints entries) := by
  induction h with
  | nil => exact .nil
  | @cons record _ rest _ hentry _ ih =>
    have hskip (hne : record.kind ≠ some checkpointKind) :
        (record :: rest).filter (fun record => record.kind = some checkpointKind) =
          rest.filter fun record => record.kind = some checkpointKind :=
      List.filter_cons_of_neg (decide_eq_true_iff.not.2 hne)
    cases gives_of_entry hentry with
    | checkpoint hkind ht =>
      rw [List.filter_cons, if_pos (decide_eq_true_iff.2 hkind)]
      exact .cons ht ih
    | step hcommitted =>
      have hne : record.kind ≠ some checkpointKind := by
        rw [kind_of_isCommittedStep hcommitted]
        decide
      rwa [hskip hne]
    | closing hkind hne =>
      rwa [hskip (by rwa [hkind, ne_eq, Option.some.injEq])]
    | other hkind hne =>
      rwa [hskip (by rwa [hkind, ne_eq, Option.some.injEq])]

/-- The closings among the entries are the records of required kinds. -/
theorem mem_closings (h : EntriesOf policy ledger entries) (hpolicy : policy.check = .ok ())
    {closing : Closing} :
    closing ∈ Entry.closings entries ↔ closing.kind ∈ policy.perStepKinds ∧
      ∃ record ∈ ledger, record.kind = some closing.kind ∧
        closing = ⟨closing.kind, record.t, record.link⟩ := by
  induction h with
  | nil => simp [Entry.closings]
  | @cons record entry _ others hentry _ ih =>
    simp only [List.exists_mem_cons_iff, and_or_left, ← ih]
    have hskip (hnot : ∀ kind ∈ policy.perStepKinds, record.kind ≠ some kind) :
        closing ∈ Entry.closings others ↔ (closing.kind ∈ policy.perStepKinds ∧
          record.kind = some closing.kind ∧ closing = ⟨closing.kind, record.t, record.link⟩) ∨
            closing ∈ Entry.closings others :=
      (or_iff_right fun hclosing => hnot _ hclosing.1 hclosing.2.1).symm
    -- The policy's contract keeps steps and checkpoints out of the required kinds.
    cases gives_of_entry hentry with
    | checkpoint hkind =>
      refine hskip fun kind hrequired heq => ?_
      exact (policy.not_reserved hpolicy hrequired).2 (Option.some.inj (heq.symm.trans hkind))
    | step hcommitted =>
      refine hskip fun kind hrequired heq => ?_
      exact (policy.not_reserved hpolicy hrequired).1
        (Option.some.inj (heq.symm.trans (kind_of_isCommittedStep hcommitted)))
    | other hkind _ hnot =>
      refine hskip fun kind hrequired heq => hnot ?_
      rwa [Option.some.inj (hkind.symm.trans heq)]
    | @closing kind hkind _ hrequired =>
      change closing ∈ ⟨kind, record.t, record.link⟩ :: Entry.closings others ↔ _
      rw [List.mem_cons]
      refine or_congr_left ⟨?_, ?_⟩
      · rintro rfl
        exact ⟨hrequired, hkind, rfl⟩
      · rintro ⟨-, heq, hclosing⟩
        rw [hkind, Option.some.injEq] at heq
        rw [heq, ← hclosing]

end Record.EntriesOf

/-- A closing belongs to a step if they share a position that is there, or an id that is there. -/
theorem Closing.closes_iff {closing : Closing} {step : AuditedStep} :
    closing.closes step ↔ (closing.t.isSome ∧ closing.t = step.t) ∨
      (closing.step.isSome ∧ closing.step = step.entryId) := by
  simp only [closes, Bool.or_eq_true, Bool.and_eq_true, beq_iff_eq]

/-- The audited step of a record carries the record's position, id and reference. -/
theorem Record.auditedStep_fields {record : Record} {step : AuditedStep}
    (h : record.auditedStep = .ok step) :
    record.stepRef? = some step.ref ∧ step.t = record.t ∧ step.entryId = record.entryId := by
  obtain ⟨_, _, ref, -, -, href, rfl⟩ := auditedStep_eq_ok_iff.1 h
  exact ⟨href, rfl, rfl⟩

namespace Policy

variable {policy : Policy} {closings : List Closing} {step : AuditedStep}

/-- A step lacks the required kinds of which no closing belongs to it. -/
theorem mem_missingFor_iff {kind : String} :
    kind ∈ policy.missingFor closings step ↔ kind ∈ policy.perStepKinds ∧
      ∀ closing ∈ closings, closing.kind = kind → ¬closing.closes step := by
  simp only [missingFor, List.mem_filter, OrderedSet.mem_toList, Bool.not_eq_true',
    List.any_eq_false, Bool.and_eq_true, beq_iff_eq, not_and]

/-- The kinds that a step lacks are listed in ascending order, each once. -/
theorem ascending_missingFor : (policy.missingFor closings step).Pairwise (· < ·) :=
  policy.perStepKinds.ascending_toList.filter _

/-- Steps with missing closings are selected among audited steps as they are among whatever these
were read from. -/
theorem missing_rel {α : Type} {R : α → AuditedStep → Prop} {lacks : α → String → Prop}
    [∀ item, Decidable (∃ kind, lacks item kind)] {items : List α} {steps : List AuditedStep}
    (h : List.Forall₂ R items steps) (hlacks : ∀ item step, R item step →
      ∀ kind, kind ∈ policy.missingFor closings step ↔ lacks item kind) :
    List.Forall₂ (fun item missing => ∃ step, R item step ∧
        missing = MissingKinds.mk step.ref (policy.missingFor closings step))
      (items.filter fun item => ∃ kind, lacks item kind) (policy.missing closings steps) := by
  refine List.rel_filter ?_ (List.forall₂_map_right_iff.2 (h.imp fun _ step hR => ⟨step, hR, rfl⟩))
  rintro item _ ⟨step, hR, rfl⟩
  simp only [decide_eq_true_iff, Bool.not_eq_true', List.isEmpty_eq_false_iff_exists_mem]
  exact exists_congr fun kind => (hlacks item step hR kind).symm

/-- What an audited step lacks is what its record lacks. -/
theorem mem_missingFor_iff_lacks {ledger : List Record} {entries : List Entry} {record : Record}
    {kind : String} (hentries : Record.EntriesOf policy ledger entries)
    (hpolicy : policy.check = .ok ()) (hstep : record.auditedStep = .ok step) :
    kind ∈ policy.missingFor (Entry.closings entries) step ↔
      policy.Lacks ledger record kind := by
  obtain ⟨-, ht, hid⟩ := Record.auditedStep_fields hstep
  rw [mem_missingFor_iff, Lacks]
  refine and_congr_right fun hrequired => ?_
  constructor
  · intro h other hmem hkind hcloses
    refine h ⟨kind, other.t, other.link⟩ ?_ rfl ?_
    · exact (hentries.mem_closings hpolicy).2 ⟨hrequired, other, hmem, hkind, rfl⟩
    · rw [Closing.closes_iff, ht, hid]
      exact hcloses
  · rintro h closing hmem rfl hcloses
    obtain ⟨-, other, hother, hkind, heq⟩ := (hentries.mem_closings hpolicy).1 hmem
    refine h other hother hkind ?_
    rw [heq, Closing.closes_iff, ht, hid] at hcloses
    exact hcloses

end Policy

/-- What the audit says of a step that lacks a closing: its reference, and in ascending order
exactly the kinds that it lacks. -/
structure MissingKinds.Describes (missing : MissingKinds) (policy : Policy)
    (ledger : List Record) (record : Record) : Prop where
  step : record.stepRef? = some missing.step
  ascending : missing.kinds.Pairwise (· < ·)
  kinds : ∀ kind, kind ∈ missing.kinds ↔ policy.Lacks ledger record kind

/-- The steps with missing closings are the incomplete steps of the ledger, in its order. -/
theorem Record.EntriesOf.missing {policy : Policy} {ledger : List Record} {entries : List Entry}
    (h : EntriesOf policy ledger entries) (hpolicy : policy.check = .ok ()) :
    List.Forall₂ (fun record missing => MissingKinds.Describes missing policy ledger record)
      (ledger.filter fun record => policy.Incomplete ledger record)
      (policy.missing (Entry.closings entries) (Entry.steps entries)) := by
  have hlacks (record : Record) (step : AuditedStep) (hstep : record.auditedStep = .ok step)
      (kind : String) : kind ∈ policy.missingFor (Entry.closings entries) step ↔
        policy.Lacks ledger record kind :=
    Policy.mem_missingFor_iff_lacks h hpolicy hstep
  have hfilter : (ledger.filter fun record => policy.Incomplete ledger record) =
      (ledger.filter (·.isCommittedStep)).filter
        fun record => ∃ kind, policy.Lacks ledger record kind := by
    rw [List.filter_filter]
    refine List.filter_congr fun record _ => ?_
    rw [Bool.eq_iff_iff, Bool.and_eq_true, decide_eq_true_iff, decide_eq_true_iff]
    exact and_comm
  rw [hfilter]
  refine (Policy.missing_rel h.steps hlacks).imp ?_
  rintro record _ ⟨step, hstep, rfl⟩
  exact ⟨(auditedStep_fields hstep).1, Policy.ascending_missingFor, hlacks record step hstep⟩

/-- The references that a report lists are those of the incomplete steps. -/
theorem Record.EntriesOf.missing_refs {policy : Policy} {ledger : List Record}
    {entries : List Entry} (h : EntriesOf policy ledger entries) (hpolicy : policy.check = .ok ()) :
    ((policy.missing (Entry.closings entries) (Entry.steps entries)).map (·.step)).map some =
      (ledger.filter fun record => policy.Incomplete ledger record).map stepRef? := by
  rw [List.map_map]
  exact (map_eq_of_forall₂ (h.missing hpolicy) fun _ _ hdescribes => hdescribes.step).symm

/-- The presence check is exact. The steps that a report lists are those committed steps of the
ledger, in its order, for which no record of some required kind belongs to them, wherever it
stands; each is listed once, with the kinds that it lacks, and at least one. -/
theorem missing_exact {ledger : List Record} {schedule : Schedule} {policy : Policy}
    {report : Report} (h : audit ledger schedule policy = .ok report) :
    report.missing.map some =
        (ledger.filter fun record => policy.Incomplete ledger record).map Record.stepRef? ∧
      report.missing = report.missingKinds.map (·.step) ∧
      List.Forall₂ (fun record missing => MissingKinds.Describes missing policy ledger record)
        (ledger.filter fun record => policy.Incomplete ledger record) report.missingKinds ∧
      ∀ missing ∈ report.missingKinds, missing.kinds ≠ [] := by
  obtain ⟨-, hpolicy, entries, hentries, rfl⟩ := audit_eq_ok_iff.1 h
  refine ⟨hentries.missing_refs hpolicy, rfl, hentries.missing hpolicy, ?_⟩
  intro missing hmem
  have hkinds := (List.mem_filter.1 hmem).2
  simpa using hkinds

/-- Two kinds are required. The first step lacks the one, the second the other, as its closing
stands before it and names it by id, and the third, which has no id, lacks both. -/
theorem missing_exact_of_two_kinds :
    let place : Option LoggedContext := some { classId := some 4, coord := some 2050 }
    let ledger : List Record :=
      [{ kind := some "petc", t := some 7, context := some { step := some "b" } },
        { kind := some "ace_step", status := some "committed", entryId := some "a", t := some 1,
          context := place },
        { kind := some "ace_step", status := some "committed", entryId := some "b", t := some 2,
          context := place },
        { kind := some "ace_step", status := some "committed", t := some 3, context := place },
        { kind := some "review", t := some 1, context := some {} }]
    let policy : Policy := { perStepKinds := .ofList ["review", "petc"] }
    ∃ report, audit ledger {} policy = .ok report ∧
      report.missing = [.entryId "a", .entryId "b", .position 3] ∧
      report.missingKinds =
        [⟨.entryId "a", ["petc"]⟩, ⟨.entryId "b", ["review"]⟩,
          ⟨.position 3, ["petc", "review"]⟩] ∧
      report.missing.map some =
        (ledger.filter fun record => policy.Incomplete ledger record).map Record.stepRef? := by
  intro place ledger policy
  have hok : (audit ledger {} policy).toOption.map
      (fun report => (report.missing, report.missingKinds)) =
      some ([.entryId "a", .entryId "b", .position 3],
        [⟨.entryId "a", ["petc"]⟩, ⟨.entryId "b", ["review"]⟩,
          ⟨.position 3, ["petc", "review"]⟩]) := by
    decide +kernel
  cases hreport : audit ledger {} policy with
  | error error =>
    rw [hreport] at hok
    cases hok
  | ok report =>
    rw [hreport] at hok
    obtain ⟨hmissing, hkinds⟩ := Prod.mk.inj (Option.some.inj hok)
    exact ⟨report, rfl, hmissing, hkinds, (missing_exact hreport).1⟩

end LatticeLedger
