import LatticeLedger.Proofs.Audit.Pass
import Mathlib.Data.List.Forall2

/-!
# What an audit reads from a ledger

An audit succeeds exactly if its configuration keeps the contracts and every record gives an
entry; the report is then computed from the entries alone, one for each record and in the same
order. `Record.Gives` lists what the entry of a record can be, so that statements about a report
are carried over from entries to records without another look at the checks.
-/

namespace LatticeLedger

/-- Of lists that are related place by place the same is selected if it is of related elements. -/
theorem filterMap_eq_of_forall₂ {α β γ : Type} {R : α → β → Prop} {f : α → Option γ}
    {g : β → Option γ} {xs : List α} {ys : List β} (h : List.Forall₂ R xs ys)
    (hfg : ∀ x y, R x y → f x = g y) : xs.filterMap f = ys.filterMap g := by
  induction h with
  | nil => rfl
  | cons hR _ ih => rw [List.filterMap_cons, List.filterMap_cons, hfg _ _ hR, ih]

/-- Of lists that are related place by place the images are equal if those of related elements are.
-/
theorem map_eq_of_forall₂ {α β γ : Type} {R : α → β → Prop} {f : α → γ} {g : β → γ}
    {xs : List α} {ys : List β} (h : List.Forall₂ R xs ys)
    (hfg : ∀ x y, R x y → f x = g y) : xs.map f = ys.map g := by
  rw [← List.filterMap_eq_map, ← List.filterMap_eq_map]
  exact filterMap_eq_of_forall₂ h fun x y hR => congrArg some (hfg x y hR)

/-- Nothing is wrong if each verdict holds and no step is listed. -/
theorem Report.allOk_iff {report : Report} :
    report.allOk = true ↔ report.fairClasses = true ∧ report.fairAnchors = true ∧
      report.auditCompliance = true ∧ report.missing = [] := by
  simp only [allOk, Bool.and_eq_true, List.isEmpty_iff, and_assoc]

/-- Every record gives the entry at its place. -/
abbrev Record.EntriesOf (policy : Policy) (ledger : List Record) (entries : List Entry) : Prop :=
  List.Forall₂ (fun record entry => record.entry policy = .ok entry) ledger entries

/-- Every record of a ledger with entries has one. -/
theorem Record.EntriesOf.exists_entry {policy : Policy} {ledger : List Record}
    {entries : List Entry} {record : Record} (h : EntriesOf policy ledger entries)
    (hmem : record ∈ ledger) : ∃ entry, record.entry policy = .ok entry := by
  induction h with
  | nil => cases hmem
  | cons hentry _ ih =>
    rcases List.mem_cons.1 hmem with rfl | hmem
    · exact ⟨_, hentry⟩
    · exact ih hmem

/-- A ledger is read if each of its records is, and what is read are their entries in order. -/
theorem entriesFrom_eq_ok_iff {policy : Policy} {index : Nat} {ledger : List Record}
    {entries : List Entry} :
    entriesFrom policy index ledger = .ok entries ↔ Record.EntriesOf policy ledger entries := by
  induction ledger generalizing index entries with
  | nil =>
    rw [entriesFrom, Except.ok.injEq, Record.EntriesOf, List.forall₂_nil_left_iff, eq_comm]
  | cons record rest ih =>
    rw [entriesFrom, bind_eq_ok_iff, Record.EntriesOf, List.forall₂_cons_left_iff]
    constructor
    · rintro ⟨entry, hentry, hrest⟩
      obtain ⟨others, hothers, heq⟩ := bind_eq_ok_iff.1 hrest
      exact ⟨entry, others, mapError_eq_ok_iff.1 hentry, ih.1 hothers, (Except.ok.inj heq).symm⟩
    · rintro ⟨entry, others, hentry, hothers, rfl⟩
      exact ⟨entry, mapError_eq_ok_iff.2 hentry, bind_eq_ok_iff.2 ⟨others, ih.2 hothers, rfl⟩⟩

/-- Ledgers are read alike if their records have the same entries, or the same faults, place by
place. -/
theorem entriesFrom_congr {policy : Policy} {index : Nat} {ledger other : List Record}
    (h : List.Forall₂ (fun record found => found.entry policy = record.entry policy) ledger other) :
    entriesFrom policy index other = entriesFrom policy index ledger := by
  induction h generalizing index with
  | nil => rfl
  | cons hentry _ ih => rw [entriesFrom, entriesFrom, hentry, ih]

/-- An audit sees nothing of a ledger but the entries of its records. -/
theorem audit_congr {ledger other : List Record} {policy : Policy} (schedule : Schedule)
    (h : List.Forall₂ (fun record found => found.entry policy = record.entry policy) ledger other) :
    audit other schedule policy = audit ledger schedule policy := by
  rw [audit_eq, audit_eq, entriesFrom_congr h]

/-- A successful audit reports on the entries of the ledger. -/
theorem audit_eq_ok_iff {ledger : List Record} {schedule : Schedule} {policy : Policy}
    {report : Report} :
    audit ledger schedule policy = .ok report ↔ schedule.check = .ok () ∧ policy.check = .ok () ∧
      ∃ entries, Record.EntriesOf policy ledger entries ∧
        Report.ofEntries schedule policy entries = report := by
  rw [audit_eq]
  constructor
  · intro h
    obtain ⟨_, hschedule, h⟩ := bind_eq_ok_iff.1 h
    obtain ⟨_, hpolicy, h⟩ := bind_eq_ok_iff.1 h
    obtain ⟨entries, hentries, h⟩ := bind_eq_ok_iff.1 h
    exact ⟨mapError_eq_ok_iff.1 hschedule, mapError_eq_ok_iff.1 hpolicy, entries,
      entriesFrom_eq_ok_iff.1 hentries, Except.ok.inj h⟩
  · rintro ⟨hschedule, hpolicy, entries, hentries, rfl⟩
    refine bind_eq_ok_iff.2 ⟨(), mapError_eq_ok_iff.2 hschedule, ?_⟩
    refine bind_eq_ok_iff.2 ⟨(), mapError_eq_ok_iff.2 hpolicy, ?_⟩
    exact bind_eq_ok_iff.2 ⟨entries, entriesFrom_eq_ok_iff.2 hentries, rfl⟩

namespace Policy

/-- A policy that keeps its contract requires no closing of the kind of a step or of a
checkpoint. -/
theorem not_reserved {policy : Policy} (h : policy.check = .ok ()) {kind : String}
    (hkind : kind ∈ policy.perStepKinds) : kind ≠ stepKind ∧ kind ≠ checkpointKind := by
  rw [check] at h
  rw [← OrderedSet.mem_toList] at hkind
  generalize policy.perStepKinds.toList = kinds at h hkind
  induction kinds with
  | nil => exact absurd hkind List.not_mem_nil
  | cons first rest ih =>
    obtain ⟨_, hfirst, hrest⟩ := bind_eq_ok_iff.1 h
    obtain ⟨_, -, hreserved⟩ := bind_eq_ok_iff.1 hfirst
    rcases List.mem_cons.1 hkind with rfl | hmem
    · exact require_eq_ok_iff.1 hreserved
    · exact ih hrest hmem

end Policy

/-- The known kinds are the three standard ones and those that the policy requires. -/
theorem Policy.recognizes_iff {policy : Policy} {kind : String} :
    policy.recognizes kind ↔ kind = stepKind ∨ kind = closingKind ∨ kind = checkpointKind ∨
      kind ∈ policy.perStepKinds := by
  simp only [recognizes, Bool.or_eq_true, beq_iff_eq, OrderedSet.contains_iff_mem, or_assoc]

namespace Record

/-- The id of the step that a record names in its context. -/
def link (record : Record) : Option String := record.context.bind (·.step)

/-- A record that keeps its contract has a kind and, if it is a checkpoint, a position. -/
theorem kind_of_check {record : Record} (h : record.check = .ok ()) :
    ∃ kind, record.kind = some kind ∧ (kind = checkpointKind → record.t.isSome) := by
  rw [check] at h
  obtain ⟨kind, hkind, h⟩ := bind_eq_ok_iff.1 h
  obtain ⟨_, -, h⟩ := bind_eq_ok_iff.1 h
  obtain ⟨_, -, h⟩ := bind_eq_ok_iff.1 h
  obtain ⟨_, -, h⟩ := bind_eq_ok_iff.1 h
  obtain ⟨_, -, h⟩ := bind_eq_ok_iff.1 h
  exact ⟨kind, demand_eq_ok_iff.1 hkind, require_eq_ok_iff.1 h⟩

/-- A committed step is of the kind of steps. -/
theorem kind_of_isCommittedStep {record : Record} (h : record.isCommittedStep) :
    record.kind = some stepKind := by
  rw [isCommittedStep, Bool.and_eq_true] at h
  exact eq_of_beq h.1

/-- A record without a status is no committed step. -/
theorem not_isCommittedStep_of_status {record : Record} (h : record.status = none) :
    ¬record.isCommittedStep := by
  simp [isCommittedStep, h]

/-- The step that a record logs has the cell of its context and the reference of the record. -/
theorem auditedStep_eq_ok_iff {record : Record} {step : AuditedStep} :
    record.auditedStep = .ok step ↔ ∃ context cell ref, record.context = some context ∧
      context.cell record.t = .ok cell ∧ record.stepRef? = some ref ∧
        step = ⟨ref, record.t, record.entryId, cell⟩ := by
  constructor
  · intro h
    obtain ⟨context, hcontext, h⟩ := bind_eq_ok_iff.1 h
    obtain ⟨cell, hcell, h⟩ := bind_eq_ok_iff.1 h
    obtain ⟨ref, href, h⟩ := bind_eq_ok_iff.1 h
    exact ⟨context, cell, ref, demand_eq_ok_iff.1 hcontext, hcell, demand_eq_ok_iff.1 href,
      (Except.ok.inj h).symm⟩
  · rintro ⟨context, cell, ref, hcontext, hcell, href, rfl⟩
    refine bind_eq_ok_iff.2 ⟨context, demand_eq_ok_iff.2 hcontext, ?_⟩
    refine bind_eq_ok_iff.2 ⟨cell, hcell, ?_⟩
    exact bind_eq_ok_iff.2 ⟨ref, demand_eq_ok_iff.2 href, rfl⟩

/-- What a record gives to an audit: a checkpoint its position, a committed step itself, a record
of a required kind a closing, and every other record nothing that counts. -/
inductive Gives (policy : Policy) (record : Record) : Entry → Prop
  | checkpoint {t : UInt64} (hkind : record.kind = some checkpointKind) (ht : record.t = some t)
    (hother : ¬record.isCommittedStep) : Gives policy record (.checkpoint t)
  | step {step : AuditedStep} (hcommitted : record.isCommittedStep)
    (hstep : record.auditedStep = .ok step) : Gives policy record (.step step)
  | closing {kind : String} (hkind : record.kind = some kind) (hne : kind ≠ checkpointKind)
    (hrequired : kind ∈ policy.perStepKinds) (hother : ¬record.isCommittedStep) :
    Gives policy record (.closing ⟨kind, record.t, record.link⟩)
  | other {kind : String} (hkind : record.kind = some kind) (hne : kind ≠ checkpointKind)
    (hnot : kind ∉ policy.perStepKinds) (hother : ¬record.isCommittedStep) :
    Gives policy record .other

/-- The entry of a record is what the record gives. -/
theorem gives_of_entry {record : Record} {policy : Policy} {found : Entry}
    (h : record.entry policy = .ok found) : record.Gives policy found := by
  obtain ⟨_, hcheck, h⟩ := bind_eq_ok_iff.1 h
  obtain ⟨_, -, h⟩ := bind_eq_ok_iff.1 h
  obtain ⟨kind, hkind, hposition⟩ := kind_of_check (mapError_eq_ok_iff.1 hcheck)
  rw [hkind, Option.getD_some, entryOfKind] at h
  by_cases hcheckpoint : kind = checkpointKind
  · subst hcheckpoint
    obtain ⟨t, ht⟩ := Option.isSome_iff_exists.1 (hposition rfl)
    have hother : ¬record.isCommittedStep := by
      intro hcommitted
      rw [kind_of_isCommittedStep hcommitted, Option.some.injEq] at hkind
      exact absurd hkind (by decide)
    rw [if_pos rfl, ht] at h
    exact Except.ok.inj h ▸ .checkpoint hkind ht hother
  rw [if_neg hcheckpoint] at h
  by_cases hcommitted : record.isCommittedStep
  · rw [if_pos hcommitted] at h
    obtain ⟨step, hstep, rfl⟩ := map_eq_ok_iff.1 h
    exact .step hcommitted hstep
  rw [if_neg hcommitted] at h
  by_cases hrequired : kind ∈ policy.perStepKinds
  · rw [if_pos (OrderedSet.contains_iff_mem.2 hrequired)] at h
    exact Except.ok.inj h ▸ .closing hkind hcheckpoint hrequired hcommitted
  · rw [if_neg (mt OrderedSet.contains_iff_mem.1 hrequired)] at h
    exact Except.ok.inj h ▸ .other hkind hcheckpoint hrequired hcommitted

/-- What a record gives is its entry if the record keeps its contract and its kind is known. -/
theorem entry_of_gives {record : Record} {policy : Policy} {found : Entry} {kind : String}
    (hcheck : record.check = .ok ()) (hkind : record.kind = some kind)
    (hknown : policy.recognizes kind) (h : record.Gives policy found) :
    record.entry policy = .ok found := by
  refine bind_eq_ok_iff.2 ⟨(), mapError_eq_ok_iff.2 hcheck, ?_⟩
  rw [hkind, Option.getD_some]
  refine bind_eq_ok_iff.2 ⟨(), require_eq_ok_iff.2 hknown, ?_⟩
  rw [entryOfKind]
  cases h with
  | checkpoint hkind' ht =>
    rw [if_pos (Option.some.inj (hkind.symm.trans hkind')), ht]
    rfl
  | step hcommitted hstep =>
    have hne : kind ≠ checkpointKind := by
      rw [Option.some.inj (hkind.symm.trans (kind_of_isCommittedStep hcommitted))]
      decide
    rw [if_neg hne, if_pos hcommitted, hstep]
    rfl
  | closing hkind' hne hrequired hother =>
    obtain rfl := Option.some.inj (hkind.symm.trans hkind')
    rw [if_neg hne, if_neg hother, if_pos (OrderedSet.contains_iff_mem.2 hrequired)]
    rfl
  | other hkind' hne hnot hother =>
    obtain rfl := Option.some.inj (hkind.symm.trans hkind')
    rw [if_neg hne, if_neg hother, if_neg (mt OrderedSet.contains_iff_mem.1 hnot)]

end Record

end LatticeLedger
